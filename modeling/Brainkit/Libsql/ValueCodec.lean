import Brainkit.Library.Base64
import Brainkit.Library.GoDecimal
import Brainkit.Library.GoJson

set_option autoImplicit false

-- The values of the Hrana protocol: from what the driver gives to JSON and back to an argument.
namespace Brainkit.Libsql.Codec

open GoText Utf8

-- What the codec takes of floating-point numbers: FormatFloat and ParseFloat, and a number as Unmarshal reads it.
structure Floats (F : Type) where
  zero : F
  format : F → GoString
  parse : GoString → F
  unmarshal : Bytes → Option F

variable {F : Type}

-- A value of type any; other is any other type, in the text of %v.
inductive GoValue (F : Type) where
  | nil
  | int64 (val : Int64)
  | int (val : Int64)
  | float64 (val : F)
  | string (val : GoString)
  | bytes (val : Bytes)
  | bool (val : Bool)
  | other (text : GoString)

structure HValue (F : Type) where
  type : GoString
  value : GoString
  floatVal : F
  base64 : GoString

variable (floats : Floats F)

def HValue.zero : HValue F := ⟨[], [], floats.zero, []⟩

def encodeToString (val : Bytes) : GoString := (Base64.encode val).map UInt8.ofNat

-- DecodeString without its error: the quantums before the one that is corrupt.
def decodeQuads : List Nat → Bytes
  | a :: b :: c :: d :: rest =>
      match Base64.value a, Base64.value b, Base64.value c, Base64.value d with
      | some a, some b, some c, some d => Base64.first a b :: Base64.second b c :: Base64.third c d :: decodeQuads rest
      | some a, some b, some c, none => if d = Base64.pad then [Base64.first a b, Base64.second b c] else []
      | some a, some b, none, none => if c = Base64.pad ∧ d = Base64.pad then [Base64.first a b] else []
      | _, _, _, _ => []
  | _ => []

def decodeString (text : GoString) : Bytes := decodeQuads ((text.map UInt8.toNat).filter (!Base64.lineBreak ·))

def goToHValue : GoValue F → HValue F
  | .nil => { HValue.zero floats with type := lit "null" }
  | .int64 val => { HValue.zero floats with type := lit "integer", value := decimal val.toInt }
  | .int val => { HValue.zero floats with type := lit "integer", value := decimal val.toInt }
  | .float64 val => { HValue.zero floats with type := lit "float", floatVal := val }
  | .string val => { HValue.zero floats with type := lit "text", value := val }
  | .bytes val => { HValue.zero floats with type := lit "blob", base64 := encodeToString val }
  | .bool val => { HValue.zero floats with type := lit "integer", value := if val then lit "1" else lit "0" }
  | .other text => { HValue.zero floats with type := lit "text", value := text }

def hValueToGo (v : HValue F) : GoValue F :=
  if v.type = lit "null" then .nil
  else if v.type = lit "integer" then .int64 (Int64.ofInt (atoi v.value))
  else if v.type = lit "float" then .float64 (floats.parse v.value)
  else if v.type = lit "text" then .string v.value
  else if v.type = lit "blob" then
    if v.base64 ≠ [] then .bytes (decodeString v.base64) else .bytes v.value
  else .string v.value

def marshalJSON (v : HValue F) : Bytes :=
  if v.type = lit "null" then lit "\x7b\"type\":\"null\"\x7d"
  else if v.type = lit "text" then lit "\x7b\"type\":\"text\",\"value\":" ++ GoJson.stringText v.value ++ lit "\x7d"
  else if v.type = lit "integer" then lit "\x7b\"type\":\"integer\",\"value\":\"" ++ v.value ++ lit "\"\x7d"
  else if v.type = lit "float" then lit "\x7b\"type\":\"float\",\"value\":" ++ floats.format v.floatVal ++ lit "\x7d"
  else if v.type = lit "blob" then lit "\x7b\"type\":\"blob\",\"base64\":\"" ++ v.base64 ++ lit "\"\x7d"
  else lit "\x7b\"type\":\"null\"\x7d"

-- The struct that UnmarshalJSON decodes into.
structure Raw where
  type : GoString
  value : Option Bytes
  base64 : GoString

-- Field names are matched without regard to case, with the letters whose lower or upper case is ASCII.
def foldRune : Rune → Rune
  | .bad byte => .bad byte
  | .char c => if c = '\u017f' then .char 'S' else if c = '\u212a' then .char 'K' else .char c.toUpper

def foldName (name : GoString) : List Rune := (runes name).map foldRune

-- A JSON value as a string; null leaves what is there.
def unmarshalString (raw : Bytes) (old : GoString) : Option GoString :=
  match raw with
  | 34 :: rest => GoJson.unquote rest.dropLast
  | 110 :: _ => some old
  | _ => none

def unmarshalMember (raw : Raw) (member : Bytes × Bytes) : Option Raw :=
  match GoJson.unquote member.1 with
  | none => none
  | some name =>
      if foldName name = foldName (lit "type") then
        (unmarshalString member.2 raw.type).map fun type => { raw with type := type }
      else if foldName name = foldName (lit "value") then some { raw with value := some member.2 }
      else if foldName name = foldName (lit "base64") then
        (unmarshalString member.2 raw.base64).map fun base64 => { raw with base64 := base64 }
      else some raw

-- A document that is neither an object nor null is an error.
def unmarshalRaw (data : Bytes) : Option Raw :=
  if GoJson.valid data then
    match GoJson.object data with
    | some members => members.foldlM unmarshalMember ⟨[], none, []⟩
    | none => if (GoJson.skipSpace data).head? = some 110 then some ⟨[], none, []⟩ else none
  else none

def unmarshalJSON (v : HValue F) (data : Bytes) : Option (HValue F) :=
  match unmarshalRaw data with
  | none => none
  | some raw =>
      let typed := { v with type := raw.type, base64 := raw.base64 }
      match raw.value with
      | none => some typed
      | some value => match unmarshalString value [] with
          | some text => some { typed with value := text }
          | none => match floats.unmarshal value with
              | some f => some { typed with floatVal := f, value := value }
              | none => some { typed with value := value }

def carried (v : GoValue F) : Option (GoValue F) :=
  (unmarshalJSON floats (HValue.zero floats) (marshalJSON floats (goToHValue floats v))).map (hValueToGo floats)

inductive Plain (F : Type) : GoValue F → Prop where
  | nil : Plain F .nil
  | int64 (val : Int64) : Plain F (.int64 val)
  | text (val : GoString) : Plain F (.string val)
  | bytes (val : Bytes) : Plain F (.bytes val)

def WellFormed : GoValue F → Prop
  | .string val => Utf8.valid val = true
  | _ => True

theorem decodeQuads_of_quads : ∀ {text : List Nat} {bytes : Bytes}, Base64.quads text = some bytes → decodeQuads text = bytes
  | [], _, read => Option.some.inj read
  | [_], _, read => nomatch read
  | [_, _], _, read => nomatch read
  | [_, _, _], _, read => nomatch read
  | a :: b :: c :: d :: rest, bytes, read => by
      rw [Base64.quads] at read
      rw [decodeQuads]
      generalize Base64.value a = first, Base64.value b = second, Base64.value c = third, Base64.value d = fourth at read ⊢
      obtain - | first := first
      · cases read
      obtain - | second := second
      · cases read
      obtain - | third := third
      · obtain - | fourth := fourth
        · dsimp only at read ⊢
          split at read
          case isTrue last =>
              rw [if_pos ⟨last.1, last.2.1⟩]
              exact Option.some.inj read
          case isFalse => cases read
        · cases read
      · obtain - | fourth := fourth
        · dsimp only at read ⊢
          split at read
          case isTrue last =>
              rw [if_pos last.1]
              exact Option.some.inj read
          case isFalse => cases read
        · obtain ⟨more, later, rfl⟩ := Option.map_eq_some_iff.mp read
          dsimp only
          rw [decodeQuads_of_quads later]

theorem decodeString_encodeToString (val : Bytes) : decodeString (encodeToString val) = val := by
  have units : (encodeToString val).map UInt8.toNat = Base64.encode val := by
    rw [encodeToString, List.map_map]
    refine (List.map_congr_left fun unit member => ?_).trans (List.map_id _)
    exact UInt8.toNat_ofNat_of_lt' (Nat.lt_trans (Base64.encode_graphic val unit member).2 (by decide))
  have read := Base64.decode_encode val
  rw [decodeString, units]
  exact decodeQuads_of_quads read

theorem encodeToString_plain (val : Bytes) :
    ∀ byte ∈ encodeToString val, GoJson.safe byte = true ∧ byte < 128 := by
  have letters : ∀ n < 64, GoJson.safe (UInt8.ofNat (Base64.digit n)) = true ∧ UInt8.ofNat (Base64.digit n) < 128 := by
    unfold Base64.digit
    rw [Base64.alphabet_letters]
    decide +kernel
  have padding : GoJson.safe (UInt8.ofNat Base64.pad) = true ∧ UInt8.ofNat Base64.pad < 128 := by decide
  intro byte member
  obtain ⟨unit, listed, rfl⟩ := List.mem_map.mp member
  obtain ⟨n, small, rfl⟩ | rfl := Base64.mem_encode listed
  · exact letters n small
  · exact padding

theorem decimal_safe (value : Int) : ∀ byte ∈ decimal value, GoJson.safe byte = true ∧ byte < 128 := by
  have digits : ∀ n < 58, 48 ≤ n → GoJson.safe (UInt8.ofNat n) = true ∧ UInt8.ofNat n < 128 := by decide
  intro byte member
  obtain rfl | ⟨least, most⟩ := GoDecimal.decimal_plain value byte member
  · decide
  · rw [← @UInt8.ofNat_toNat byte]
    exact digits byte.toNat (Nat.lt_succ_of_le most) least

theorem plain_scans {text : GoString} (plain : ∀ byte ∈ text, GoJson.safe byte = true ∧ byte < 128) :
    GoJson.Scans text ∧ GoJson.unquote text = some text := by
  have same := GoJson.contentText_plain plain
  have scans := GoJson.scans_content text
  have read := GoJson.unquote_content text
  rw [GoJson.coerce_ascii fun byte member => (plain byte member).2] at read
  rw [same] at scans read
  exact ⟨scans, read⟩

theorem unmarshalString_quoted (content old : GoString) :
    unmarshalString (34 :: content ++ [34]) old = GoJson.unquote content := by
  change GoJson.unquote (content ++ [34]).dropLast = GoJson.unquote content
  rw [List.dropLast_concat]

theorem unmarshalRaw_pair {type name content : GoString} (plainType : ∀ byte ∈ type, GoJson.safe byte = true ∧ byte < 128)
    (scansName : GoJson.Scans name) (scansContent : GoJson.Scans content) :
    unmarshalRaw (lit "\x7b\"type\":\"" ++ type ++ lit "\",\"" ++ name ++ lit "\":\"" ++ content ++ lit "\"\x7d") =
      unmarshalMember ⟨type, none, []⟩ (name, 34 :: content ++ [34]) := by
  have text : lit "\x7b\"type\":\"" ++ type ++ lit "\",\"" ++ name ++ lit "\":\"" ++ content ++ lit "\"\x7d" =
      123 :: GoJson.written [(lit "type", type), (name, content)] := by
    simp [GoJson.written, show lit "\x7b\"type\":\"" = 123 :: 34 :: lit "type" ++ [34, 58, 34] by decide,
      show lit "\",\"" = [34, 44, 34] by decide, show lit "\":\"" = [34, 58, 34] by decide,
      show lit "\"\x7d" = [34, 125] by decide]
  have scansType := (@plain_scans (lit "type") (Utf8.forall_checked (by decide))).1
  obtain ⟨valid, members⟩ := GoJson.object_written (List.cons_ne_nil (lit "type", type) [(name, content)]) (by
    intro m listed
    simp only [List.mem_cons, List.not_mem_nil, or_false] at listed
    obtain rfl | rfl := listed
    · exact ⟨scansType, (plain_scans plainType).1⟩
    · exact ⟨scansName, scansContent⟩)
  have typed : unmarshalMember ⟨[], none, []⟩ (lit "type", 34 :: type ++ [34]) = some ⟨type, none, []⟩ := by
    rw [unmarshalMember, (@plain_scans (lit "type") (Utf8.forall_checked (by decide))).2]
    dsimp only
    rw [if_pos rfl, unmarshalString_quoted, (plain_scans plainType).2]
    rfl
  rw [text, unmarshalRaw, if_pos valid, members]
  simp only [List.map_cons, List.map_nil, GoJson.quoted, List.foldlM_cons, List.foldlM_nil, typed]
  change (unmarshalMember ⟨type, none, []⟩ (name, 34 :: content ++ [34])).bind some = _
  exact Option.bind_fun_some _

theorem fold_names : foldName (lit "value") ≠ foldName (lit "type") ∧ foldName (lit "base64") ≠ foldName (lit "type") ∧
    foldName (lit "base64") ≠ foldName (lit "value") := by
  decide

theorem carried_value {type content text : GoString} (plainType : ∀ byte ∈ type, GoJson.safe byte = true ∧ byte < 128)
    (scans : GoJson.Scans content) (read : GoJson.unquote content = some text) :
    unmarshalJSON floats (HValue.zero floats)
      (lit "\x7b\"type\":\"" ++ type ++ lit "\",\"" ++ lit "value" ++ lit "\":\"" ++ content ++ lit "\"\x7d") =
      some ⟨type, text, floats.zero, []⟩ := by
  have raw := unmarshalRaw_pair plainType (@plain_scans (lit "value") (Utf8.forall_checked (by decide))).1 scans
  rw [unmarshalMember, (@plain_scans (lit "value") (Utf8.forall_checked (by decide))).2] at raw
  dsimp only at raw
  rw [if_neg fold_names.1, if_pos rfl] at raw
  rw [unmarshalJSON, raw]
  dsimp only
  rw [unmarshalString_quoted, read]
  rfl

theorem carried_base64 {type content text : GoString} (plainType : ∀ byte ∈ type, GoJson.safe byte = true ∧ byte < 128)
    (scans : GoJson.Scans content) (read : GoJson.unquote content = some text) :
    unmarshalJSON floats (HValue.zero floats)
      (lit "\x7b\"type\":\"" ++ type ++ lit "\",\"" ++ lit "base64" ++ lit "\":\"" ++ content ++ lit "\"\x7d") =
      some ⟨type, [], floats.zero, text⟩ := by
  have raw := unmarshalRaw_pair plainType (@plain_scans (lit "base64") (Utf8.forall_checked (by decide))).1 scans
  rw [unmarshalMember, (@plain_scans (lit "base64") (Utf8.forall_checked (by decide))).2] at raw
  dsimp only at raw
  rw [if_neg fold_names.2.1, if_neg fold_names.2.2, if_pos rfl, unmarshalString_quoted, read] at raw
  rw [unmarshalJSON, raw]
  rfl

theorem carried_nil : carried floats .nil = some .nil := by
  have raw : unmarshalRaw (lit "\x7b\"type\":\"null\"\x7d") = some ⟨lit "null", none, []⟩ := rfl
  rw [carried, goToHValue, marshalJSON, if_pos rfl, unmarshalJSON, raw]
  exact congrArg some (if_pos rfl)

theorem marshalJSON_integer {v : HValue F} (typed : v.type = lit "integer") :
    marshalJSON floats v = lit "\x7b\"type\":\"" ++ lit "integer" ++ lit "\",\"" ++ lit "value" ++ lit "\":\"" ++ v.value ++
      lit "\"\x7d" := by
  rw [marshalJSON, typed, if_neg (by decide), if_neg (by decide), if_pos rfl]
  exact congrArg (· ++ v.value ++ lit "\"\x7d") (by decide)

theorem marshalJSON_text {v : HValue F} (typed : v.type = lit "text") :
    marshalJSON floats v = lit "\x7b\"type\":\"" ++ lit "text" ++ lit "\",\"" ++ lit "value" ++ lit "\":\"" ++
      GoJson.contentText v.value ++ lit "\"\x7d" := by
  have opening : lit "\x7b\"type\":\"text\",\"value\":" ++ [34] =
      lit "\x7b\"type\":\"" ++ lit "text" ++ lit "\",\"" ++ lit "value" ++ lit "\":\"" := by decide
  have closing : lit "\"\x7d" = [34] ++ lit "\x7d" := by decide
  rw [marshalJSON, typed, if_neg (by decide), if_pos rfl, ← opening, closing, GoJson.stringText]
  simp only [List.append_assoc, List.cons_append, List.nil_append]

theorem marshalJSON_blob {v : HValue F} (typed : v.type = lit "blob") :
    marshalJSON floats v = lit "\x7b\"type\":\"" ++ lit "blob" ++ lit "\",\"" ++ lit "base64" ++ lit "\":\"" ++ v.base64 ++
      lit "\"\x7d" := by
  rw [marshalJSON, typed, if_neg (by decide), if_neg (by decide), if_neg (by decide), if_neg (by decide), if_pos rfl]
  exact congrArg (· ++ v.base64 ++ lit "\"\x7d") (by decide)

theorem hValueToGo_integer {v : HValue F} (typed : v.type = lit "integer") :
    hValueToGo floats v = .int64 (Int64.ofInt (atoi v.value)) := by
  rw [hValueToGo, typed, if_neg (by decide), if_pos rfl]

theorem hValueToGo_text {v : HValue F} (typed : v.type = lit "text") : hValueToGo floats v = .string v.value := by
  rw [hValueToGo, typed, if_neg (by decide), if_neg (by decide), if_neg (by decide), if_pos rfl]

theorem hValueToGo_blob {v : HValue F} (typed : v.type = lit "blob") :
    hValueToGo floats v = if v.base64 ≠ [] then .bytes (decodeString v.base64) else .bytes v.value := by
  rw [hValueToGo, typed, if_neg (by decide), if_neg (by decide), if_neg (by decide), if_neg (by decide), if_pos rfl]

theorem carried_int64 (val : Int64) : carried floats (.int64 val) = some (.int64 val) := by
  obtain ⟨scans, read⟩ := plain_scans (decimal_safe val.toInt)
  rw [carried, goToHValue, marshalJSON_integer floats rfl, carried_value floats (Utf8.forall_checked (by decide)) scans read,
    Option.map_some,
    hValueToGo_integer floats rfl]
  dsimp only
  rw [GoDecimal.atoi_decimal val.le_toInt val.toInt_lt, Int64.ofInt_toInt]

theorem carried_string (val : GoString) : carried floats (.string val) = some (.string (coerce val)) := by
  rw [carried, goToHValue, marshalJSON_text floats rfl,
    carried_value floats (Utf8.forall_checked (by decide)) (GoJson.scans_content val) (GoJson.unquote_content val), Option.map_some,
    hValueToGo_text floats rfl]

theorem carried_bytes (val : Bytes) : carried floats (.bytes val) = some (.bytes val) := by
  obtain ⟨scans, read⟩ := plain_scans (encodeToString_plain val)
  rw [carried, goToHValue, marshalJSON_blob floats rfl, carried_base64 floats (Utf8.forall_checked (by decide)) scans read,
    Option.map_some,
    hValueToGo_blob floats rfl]
  dsimp only
  -- no bytes are sent as no base64 at all, and then the bytes are those of the value, which is empty
  split
  case isTrue => rw [decodeString_encodeToString]
  case isFalse none =>
      have same := decodeString_encodeToString val
      rw [not_not.mp none] at same
      exact congrArg (fun bytes => some (GoValue.bytes bytes)) same

-- What a value must be like to come back: floating-point numbers and the other types are not looked at.
theorem carried_iff {v : GoValue F} (plain : Plain F v) : carried floats v = some v ↔ WellFormed v := by
  cases plain with
  | nil => exact ⟨fun _ => trivial, fun _ => carried_nil floats⟩
  | int64 val => exact ⟨fun _ => trivial, fun _ => carried_int64 floats val⟩
  | bytes val => exact ⟨fun _ => trivial, fun _ => carried_bytes floats val⟩
  | text val =>
      rw [carried_string, Option.some.injEq, GoValue.string.injEq]
      exact coerce_fixed_iff val

def noFloats : Floats Unit := ⟨(), fun _ => [], fun _ => (), fun _ => none⟩

theorem carried_iff_blob : carried noFloats (.bytes [0, 255]) = some (.bytes [0, 255]) :=
  (carried_iff noFloats (.bytes [0, 255])).mpr trivial

-- A text of one byte that is no UTF-8 comes back as U+FFFD.
theorem carried_text_replaced : ¬ ∀ v : GoValue Unit, Plain Unit v → carried noFloats v = some v := by
  intro all
  have same := all (.string [255]) (.text [255])
  rw [carried_string] at same
  have texts : coerce [255] = [255] := GoValue.string.inj (Option.some.inj same)
  revert texts
  decide

end Brainkit.Libsql.Codec
