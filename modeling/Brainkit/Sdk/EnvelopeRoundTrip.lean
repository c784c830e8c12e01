import Mathlib.Logic.Function.Iterate
import Brainkit.Sdk.Envelope

set_option autoImplicit false

namespace Brainkit.Sdk

open GoText

theorem details_same_refl (a : Details) : Details.same a a := by
  cases a with
  | none => trivial
  | some fields => exact fun _ => rfl

theorem details_same_symm (a b : Details) (same : Details.same a b) : Details.same b a := by
  cases a <;> cases b <;> first | exact same | exact fun key => (same key).symm

theorem details_same_trans (a b c : Details) (left : Details.same a b) (right : Details.same b c) :
    Details.same a c := by
  cases a <;> cases b <;> cases c <;>
    first | trivial | exact False.elim left | exact False.elim right | exact fun key => (left key).trans (right key)

theorem details_same_detail (a b : Details) (same : Details.same a b) (key : GoString) : detail a key = detail b key := by
  cases a <;> cases b <;> first | rfl | exact False.elim same | exact same key

def rebuild (isPrint : Nat → Bool) (err : BrainkitError) : BrainkitError :=
  fromCode (Utf8.coerce err.code) (Utf8.coerce (err.errorText isPrint)) (jsonDetails err.details)

theorem hop_error (isPrint : Nat → Bool) (err : BrainkitError) :
    hop isPrint (errorEnvelope isPrint err) = errorEnvelope isPrint (rebuild isPrint err) := rfl

theorem error_envelope_same_iff (isPrint : Nat → Bool) (a b : BrainkitError) :
    (errorEnvelope isPrint a).same (errorEnvelope isPrint b) ↔
      a.code = b.code ∧ a.errorText isPrint = b.errorText isPrint ∧ Details.same a.details b.details := by
  simp [Envelope.same, errorEnvelope, toEnvelope, envelopeErr, BrainkitError.asError, EnvelopeError.same]

theorem error_envelope_same_refl (isPrint : Nat → Bool) (err : BrainkitError) :
    (errorEnvelope isPrint err).same (errorEnvelope isPrint err) :=
  (error_envelope_same_iff isPrint err err).mpr ⟨rfl, rfl, details_same_refl _⟩

theorem longer_text_not_same (isPrint : Nat → Bool) (a b : BrainkitError)
    (longer : (b.errorText isPrint).length < (a.errorText isPrint).length) :
    ¬ (errorEnvelope isPrint a).same (errorEnvelope isPrint b) := by
  intro same
  have texts := ((error_envelope_same_iff isPrint a b).mp same).2.1
  rw [texts] at longer
  exact Nat.lt_irrefl _ longer

theorem text_detail_same (a b : BrainkitError) (key left right : GoString)
    (same : Details.same a.details b.details)
    (atLeft : detail a.details key = some (.text left)) (atRight : detail b.details key = some (.text right)) :
    left = right := by
  have values := details_same_detail _ _ same key
  rw [atLeft, atRight, Option.some.injEq, Value.text.injEq] at values
  exact values

theorem coerced_detail_valid (a b : BrainkitError) (key text : GoString)
    (same : Details.same a.details b.details)
    (atLeft : detail a.details key = some (.text (Utf8.coerce text)))
    (atRight : detail b.details key = some (.text text)) : Utf8.valid text = true :=
  (Utf8.coerce_fixed_iff text).mp (text_detail_same a b key _ text same atLeft atRight)

theorem coerce_valid (text : GoString) (valid : Utf8.valid text = true) : Utf8.coerce text = text :=
  (Utf8.coerce_fixed_iff text).mpr valid

theorem text_of_coerced (values : List GoString) :
    (values.map fun value => Value.text (Utf8.coerce value)).filterMap textOf = values.map Utf8.coerce := by
  induction values with
  | nil => rfl
  | cons value rest ih => simp only [List.map_cons, List.filterMap_cons, textOf, ih]

theorem str_slice_copied (details : Details) (key : GoString) (values : List GoString)
    (access : detail details key = some (jsonValue (.texts (BrainkitError.copyStrings values)))) :
    strSlice details key = values.map Utf8.coerce := by
  cases values with
  | nil => simp [strSlice, access, BrainkitError.copyStrings, jsonValue]
  | cons value rest =>
      simp only [strSlice, access, BrainkitError.copyStrings, reduceCtorEq, if_false, jsonValue]
      exact text_of_coerced (value :: rest)

theorem map_coerce_fixed_iff (values : List GoString) :
    values.map Utf8.coerce = values ↔ ∀ value ∈ values, Utf8.valid value = true := by
  induction values with
  | nil => simp
  | cons value rest ih => simp [List.map_cons, ih, Utf8.coerce_fixed_iff]

theorem int_of_float_round_iff (depth : Int64) :
    intOfFloat (Float64.round depth.toInt : Int) = depth ↔ Float64.Exact depth.toInt := by
  have low := Int64.le_toInt depth
  have high := Int64.toInt_lt depth
  have least : Int64.minValue.toInt = -2 ^ 63 := by decide
  have greatest : Int64.maxValue.toInt = 2 ^ 63 - 1 := by decide
  rw [← Float64.round_fixed_iff, intOfFloat]
  simp only [Rat.num_intCast, Rat.den_intCast, Int.natCast_one, Int.tdiv_one]
  by_cases inRange : Int64.minValue.toInt ≤ Float64.round depth.toInt ∧ Float64.round depth.toInt ≤ Int64.maxValue.toInt
  · rw [if_pos inRange, ← Int64.toInt_inj, Int64.toInt_ofInt]
    have kept : (Float64.round depth.toInt).bmod Int64.size = Float64.round depth.toInt := by
      apply Int.bmod_eq_of_le <;> simp only [Int64.size] <;> omega
    rw [kept]
  · rw [if_neg inRange]
    have moved : Float64.round depth.toInt ≠ depth.toInt := by omega
    refine iff_of_false ?_ moved
    intro same
    subst same
    exact moved (by decide)

-- The typed errors whose envelope a hop leaves as it is. A wrapped cause is rebuilt from the whole message and then
-- wrapped once more, and Reason and BoundaryClass are not read back at all.
def Survives : BrainkitError → Prop
  | .notFoundError resource name => Utf8.valid resource ∧ Utf8.valid name
  | .alreadyExistsError resource name hint => Utf8.valid resource ∧ Utf8.valid name ∧ Utf8.valid hint
  | .validationError field message => Utf8.valid field ∧ Utf8.valid message
  | .timeoutError operation => Utf8.valid operation
  | .workspaceEscapeError path => Utf8.valid path
  | .notConfiguredError feature => Utf8.valid feature
  | .packageResolverError specifier importer source profile allowedBareImports suggestedOwner reason boundaryClass =>
      (Utf8.valid specifier ∧ Utf8.valid importer ∧ Utf8.valid source ∧ Utf8.valid profile ∧
        Utf8.valid suggestedOwner ∧ ∀ name ∈ allowedBareImports, Utf8.valid name = true) ∧
        reason = [] ∧ boundaryClass = []
  | .cycleDetectedError depth => Float64.Exact depth.toInt
  | .transportError .. | .persistenceError .. | .deployError .. | .bridgeError .. | .compilerError ..
  | .decodeError .. | .busError .. => False

theorem rebuild_package_resolver (isPrint : Nat → Bool) (specifier importer source profile : GoString)
    (allowedBareImports : List GoString) (suggestedOwner reason boundaryClass : GoString) :
    rebuild isPrint (.packageResolverError specifier importer source profile allowedBareImports suggestedOwner reason boundaryClass) =
      .packageResolverError (Utf8.coerce specifier) (Utf8.coerce importer) (Utf8.coerce source) (Utf8.coerce profile)
        (allowedBareImports.map Utf8.coerce) (Utf8.coerce suggestedOwner) [] [] := by
  have names := str_slice_copied (jsonDetails (BrainkitError.packageResolverError specifier importer source profile
    allowedBareImports suggestedOwner reason boundaryClass).details) (lit "allowedBareImports") allowedBareImports rfl
  rw [← names]
  rfl

theorem survives_rebuild (isPrint : Nat → Bool) (err : BrainkitError) (survives : Survives err) :
    rebuild isPrint err = err := by
  cases err with
  | notFoundError resource name =>
      change BrainkitError.notFoundError (Utf8.coerce resource) (Utf8.coerce name) = _
      rw [coerce_valid _ survives.1, coerce_valid _ survives.2]
  | alreadyExistsError resource name hint =>
      change BrainkitError.alreadyExistsError (Utf8.coerce resource) (Utf8.coerce name) (Utf8.coerce hint) = _
      rw [coerce_valid _ survives.1, coerce_valid _ survives.2.1, coerce_valid _ survives.2.2]
  | validationError field message =>
      change BrainkitError.validationError (Utf8.coerce field) (Utf8.coerce message) = _
      rw [coerce_valid _ survives.1, coerce_valid _ survives.2]
  | timeoutError operation => exact congrArg BrainkitError.timeoutError (coerce_valid _ survives)
  | workspaceEscapeError path => exact congrArg BrainkitError.workspaceEscapeError (coerce_valid _ survives)
  | notConfiguredError feature => exact congrArg BrainkitError.notConfiguredError (coerce_valid _ survives)
  | packageResolverError specifier importer source profile allowedBareImports suggestedOwner reason boundaryClass =>
      obtain ⟨⟨hs, hi, hsrc, hp, ho, names⟩, rfl, rfl⟩ := survives
      rw [rebuild_package_resolver, coerce_valid _ hs, coerce_valid _ hi, coerce_valid _ hsrc, coerce_valid _ hp,
        coerce_valid _ ho, (map_coerce_fixed_iff allowedBareImports).mpr names]
  | cycleDetectedError depth =>
      exact congrArg BrainkitError.cycleDetectedError ((int_of_float_round_iff depth).mpr survives)
  | transportError | persistenceError | deployError | bridgeError | compilerError | decodeError | busError =>
      exact False.elim survives

theorem wrapped_cause_lost (isPrint : Nat → Bool) (err : BrainkitError)
    (wrapped : ∃ shell : GoString, 0 < shell.length ∧
      (rebuild isPrint err).errorText isPrint = shell ++ Utf8.coerce (err.errorText isPrint)) :
    ¬ (errorEnvelope isPrint (rebuild isPrint err)).same (errorEnvelope isPrint err) := by
  obtain ⟨shell, nonempty, text⟩ := wrapped
  apply longer_text_not_same
  have bound := Utf8.length_le_coerce (err.errorText isPrint)
  rw [text, List.length_append]
  omega

theorem separator_pos (text : GoString) : 0 < (text ++ lit ": ").length := by
  rw [List.length_append]
  exact Nat.add_pos_right _ (by decide)

theorem survives_of_hop (isPrint : Nat → Bool) (err : BrainkitError)
    (typed : ∀ code message details, err ≠ .busError code message details)
    (same : (errorEnvelope isPrint (rebuild isPrint err)).same (errorEnvelope isPrint err)) : Survives err := by
  have details := ((error_envelope_same_iff isPrint _ _).mp same).2.2
  cases err with
  | notFoundError resource name =>
      exact ⟨coerced_detail_valid _ _ (lit "resource") resource details rfl rfl,
        coerced_detail_valid _ _ (lit "name") name details rfl rfl⟩
  | alreadyExistsError resource name hint =>
      exact ⟨coerced_detail_valid _ _ (lit "resource") resource details rfl rfl,
        coerced_detail_valid _ _ (lit "name") name details rfl rfl,
        coerced_detail_valid _ _ (lit "hint") hint details rfl rfl⟩
  | validationError field message =>
      exact ⟨coerced_detail_valid _ _ (lit "field") field details rfl rfl,
        coerced_detail_valid _ _ (lit "message") message details rfl rfl⟩
  | timeoutError operation => exact coerced_detail_valid _ _ (lit "operation") operation details rfl rfl
  | workspaceEscapeError path => exact coerced_detail_valid _ _ (lit "path") path details rfl rfl
  | notConfiguredError feature => exact coerced_detail_valid _ _ (lit "feature") feature details rfl rfl
  | packageResolverError specifier importer source profile allowedBareImports suggestedOwner reason boundaryClass =>
      rw [rebuild_package_resolver] at details
      have names := details_same_detail _ _ details (lit "allowedBareImports")
      refine ⟨⟨coerced_detail_valid _ _ (lit "specifier") specifier details rfl rfl,
        coerced_detail_valid _ _ (lit "importer") importer details rfl rfl,
        coerced_detail_valid _ _ (lit "source") source details rfl rfl,
        coerced_detail_valid _ _ (lit "profile") profile details rfl rfl,
        coerced_detail_valid _ _ (lit "suggestedFutureOwner") suggestedOwner details rfl rfl, ?_⟩,
        (text_detail_same _ _ (lit "reason") [] reason details rfl rfl).symm,
        (text_detail_same _ _ (lit "boundaryClass") [] boundaryClass details rfl rfl).symm⟩
      apply (map_coerce_fixed_iff allowedBareImports).mp
      change some (Value.texts (BrainkitError.copyStrings (allowedBareImports.map Utf8.coerce))) =
        some (Value.texts (BrainkitError.copyStrings allowedBareImports)) at names
      cases allowedBareImports with
      | nil => rfl
      | cons name rest => simpa [BrainkitError.copyStrings] using names
  | cycleDetectedError depth =>
      apply (int_of_float_round_iff depth).mp
      have values := details_same_detail _ _ details (lit "depth")
      change some (Value.int (intOfFloat (Float64.round depth.toInt : Int))) = some (Value.int depth) at values
      simpa using values
  | transportError operation cause =>
      exact wrapped_cause_lost isPrint _ ⟨lit "transport: " ++ Utf8.coerce operation ++ lit ": ",
        separator_pos _, rfl⟩ same
  | persistenceError operation source cause =>
      refine wrapped_cause_lost isPrint _ ?_ same
      change ∃ shell : GoString, 0 < shell.length ∧ (BrainkitError.persistenceError (Utf8.coerce operation)
        (Utf8.coerce source) (some _)).errorText isPrint = _
      by_cases named : Utf8.coerce source ≠ []
      · exact ⟨lit "persistence: " ++ Utf8.coerce operation ++ lit " " ++ Utf8.coerce source ++ lit ": ",
          separator_pos _,
          by simp only [BrainkitError.errorText, if_pos named, causeText]⟩
      · exact ⟨lit "persistence: " ++ Utf8.coerce operation ++ lit ": ",
          separator_pos _,
          by simp only [BrainkitError.errorText, if_neg named, causeText]⟩
  | deployError source phase cause =>
      exact wrapped_cause_lost isPrint _ ⟨lit "deploy " ++ Utf8.coerce source ++ lit ": " ++ Utf8.coerce phase ++ lit ": ",
        separator_pos _, rfl⟩ same
  | bridgeError function cause =>
      exact wrapped_cause_lost isPrint _ ⟨lit "bridge " ++ Utf8.coerce function ++ lit ": ",
        separator_pos _, rfl⟩ same
  | compilerError cause => exact wrapped_cause_lost isPrint _ ⟨lit "compiler: ", by decide, rfl⟩ same
  | decodeError topic cause =>
      exact wrapped_cause_lost isPrint _ ⟨lit "decode " ++ Utf8.coerce topic ++ lit ": ",
        separator_pos _, rfl⟩ same
  | busError code message fields => exact absurd rfl (typed code message fields)

theorem from_code_bus (code message : GoString) (d : Details) (c m : GoString) (e : Details)
    (bus : fromCode code message d = .busError c m e) : c = code ∧ m = message ∧ e = d := by
  rcases switch_cases code (codeCases message d) (.busError code message d) with default | ⟨entry, member, same⟩
  · have equal := bus.symm.trans default
    simpa using equal
  · rw [fromCode, same] at bus
    simp only [codeCases, List.mem_cons, List.not_mem_nil, or_false] at member
    rcases member with rfl | rfl | rfl | rfl | rfl | rfl | rfl | rfl | rfl | rfl | rfl | rfl | rfl | rfl <;> cases bus

-- A key as the code spells it: ASCII, so the JSON round trip neither makes another key collide with it nor changes
-- it.
def PlainKey (key : GoString) : Prop := 0xEF ∉ key ∧ Utf8.coerce key = key

instance (key : GoString) : Decidable (PlainKey key) :=
  inferInstanceAs (Decidable (0xEF ∉ key ∧ Utf8.coerce key = key))

theorem find_json_fields (key : GoString) (fields : Fields) (plain : PlainKey key) :
    find key (jsonFields fields) = (find key fields).map jsonValue := by
  induction fields with
  | nil => rfl
  | cons field rest ih =>
      obtain ⟨name, value⟩ := field
      have names := Utf8.coerce_plain_iff name key plain.1 plain.2
      by_cases hit : name = key
      · simp only [jsonFields, find, if_pos (names.mpr hit), if_pos hit, Option.map_some]
      · simp only [jsonFields, find, if_neg (fun coerced => hit (names.mp coerced)), if_neg hit, ih]

theorem detail_json (key : GoString) (d : Details) (plain : PlainKey key) :
    detail (jsonDetails d) key = (detail d key).map jsonValue := by
  cases d with
  | none => rfl
  | some fields =>
      cases fields with
      | nil => rfl
      | cons field rest => exact find_json_fields key (field :: rest) plain

theorem from_code_congr (code message : GoString) (a b : Details)
    (agree : ∀ key, PlainKey key → detail a key = detail b key) :
    fromCode code message a = fromCode code message b ∨ fromCode code message b = .busError code message b := by
  have texts : ∀ key, PlainKey key → str a key = str b key := by
    intro key plain
    rw [str, str, agree key plain]
  have slices : strSlice a (lit "allowedBareImports") = strSlice b (lit "allowedBareImports") := by
    rw [strSlice, strSlice, agree _ (by decide)]
  have depths : depthOf a = depthOf b := by
    rw [depthOf, depthOf, agree _ (by decide)]
  have cases : codeCases message a = codeCases message b := by
    unfold codeCases
    rw [slices, depths, texts (lit "resource") (by decide), texts (lit "name") (by decide), texts (lit "hint") (by decide),
      texts (lit "field") (by decide), texts (lit "message") (by decide), texts (lit "operation") (by decide),
      texts (lit "path") (by decide), texts (lit "feature") (by decide), texts (lit "source") (by decide),
      texts (lit "phase") (by decide), texts (lit "specifier") (by decide), texts (lit "importer") (by decide),
      texts (lit "profile") (by decide), texts (lit "suggestedFutureOwner") (by decide),
      texts (lit "function") (by decide), texts (lit "topic") (by decide)]
  rw [fromCode, fromCode, cases]
  exact switch_fallback code (codeCases message b) (.busError code message a) (.busError code message b)

theorem rebuild_twin (isPrint : Nat → Bool) (code message : GoString) (fields : Details) (twin : BrainkitError)
    (survives : Survives twin) (codes : twin.code = code) (texts : twin.errorText isPrint = code ++ lit ": " ++ message)
    (details : Details.same twin.details fields) : rebuild isPrint (.busError code message fields) = twin := by
  have kept := survives_rebuild isPrint twin survives
  have agree : ∀ key, PlainKey key → detail (jsonDetails fields) key = detail (jsonDetails twin.details) key := by
    intro key plain
    rw [detail_json key _ plain, detail_json key _ plain, details_same_detail _ _ details key]
  have same := from_code_congr (Utf8.coerce twin.code) (Utf8.coerce (twin.errorText isPrint)) _ _ agree
  change fromCode (Utf8.coerce code) (Utf8.coerce (code ++ lit ": " ++ message)) (jsonDetails fields) = twin
  rw [← codes, codes, ← texts, ← codes]
  rcases same with equal | bus
  · exact equal.trans kept
  · have impossible : twin = .busError (Utf8.coerce twin.code) (Utf8.coerce (twin.errorText isPrint)) (jsonDetails twin.details) :=
      kept.symm.trans bus
    rw [impossible] at survives
    exact False.elim survives

def RoundTrips (isPrint : Nat → Bool) (err : BrainkitError) : Prop :=
  ∀ hops, ((hop isPrint)^[hops] (errorEnvelope isPrint err)).same (errorEnvelope isPrint err)

-- The errors that come through unchanged: a typed error that survives a hop, and a BusError that says exactly what
-- such a typed error says.
def RoundTripCondition (isPrint : Nat → Bool) : BrainkitError → Prop
  | .busError code message fields => ∃ twin, Survives twin ∧ twin.code = code ∧
      twin.errorText isPrint = code ++ lit ": " ++ message ∧ Details.same twin.details fields
  | err => Survives err

theorem survives_round_trips (isPrint : Nat → Bool) (err : BrainkitError) (survives : Survives err) (hops : Nat) :
    (hop isPrint)^[hops] (errorEnvelope isPrint err) = errorEnvelope isPrint err := by
  apply Function.iterate_fixed
  rw [hop_error, survives_rebuild isPrint err survives]

theorem bus_error_round_trips_iff (isPrint : Nat → Bool) (code message : GoString) (fields : Details) :
    RoundTrips isPrint (.busError code message fields) ↔ RoundTripCondition isPrint (.busError code message fields) := by
  constructor
  · intro trips
    have first : (errorEnvelope isPrint (rebuild isPrint (.busError code message fields))).same
        (errorEnvelope isPrint (.busError code message fields)) := trips 1
    have second : (errorEnvelope isPrint (rebuild isPrint (rebuild isPrint (.busError code message fields)))).same
        (errorEnvelope isPrint (.busError code message fields)) := trips 2
    have firstParts := (error_envelope_same_iff isPrint _ _).mp first
    have secondParts := (error_envelope_same_iff isPrint _ _).mp second
    have typed : ∀ c m e, rebuild isPrint (.busError code message fields) ≠ .busError c m e := by
      intro c m e bus
      obtain ⟨_, messages, _⟩ := from_code_bus _ _ _ c m e bus
      refine wrapped_cause_lost isPrint _ ⟨c ++ lit ": ", ?_, ?_⟩ first
      · rw [List.length_append]
        exact Nat.add_pos_right _ (by decide)
      · rw [bus, messages]
        rfl
    refine ⟨rebuild isPrint (.busError code message fields), survives_of_hop isPrint _ typed ?_,
      firstParts.1, firstParts.2.1, firstParts.2.2⟩
    exact (error_envelope_same_iff isPrint _ _).mpr ⟨secondParts.1.trans firstParts.1.symm,
      secondParts.2.1.trans firstParts.2.1.symm,
      details_same_trans _ _ _ secondParts.2.2 (details_same_symm _ _ firstParts.2.2)⟩
  · rintro ⟨twin, survives, codes, texts, details⟩ hops
    cases hops with
    | zero => exact error_envelope_same_refl isPrint _
    | succ hops =>
        rw [Function.iterate_succ_apply, hop_error, rebuild_twin isPrint code message fields twin survives codes texts details,
          survives_round_trips isPrint twin survives hops]
        exact (error_envelope_same_iff isPrint _ _).mpr ⟨codes, texts, details⟩

theorem error_envelope_round_trips_iff (isPrint : Nat → Bool) (err : BrainkitError) :
    RoundTrips isPrint err ↔ RoundTripCondition isPrint err := by
  by_cases bus : ∃ code message fields, err = .busError code message fields
  · obtain ⟨code, message, fields, rfl⟩ := bus
    exact bus_error_round_trips_iff isPrint code message fields
  · have typed : ∀ code message fields, err ≠ .busError code message fields :=
      fun code message fields same => bus ⟨code, message, fields, same⟩
    have condition : RoundTripCondition isPrint err = Survives err := by
      cases err <;> first | rfl | exact absurd rfl (typed _ _ _)
    rw [condition]
    constructor
    · intro trips
      exact survives_of_hop isPrint err typed (trips 1)
    · intro survives hops
      rw [survives_round_trips isPrint err survives hops]
      exact error_envelope_same_refl isPrint err

-- A publish failure reaches the second caller with the transport text twice.
theorem transport_error_drifts :
    (hop (fun _ => true) (errorEnvelope (fun _ => true)
        (.transportError (lit "publish") (some (lit "connection refused"))))).error.map EnvelopeError.message =
      some (lit "transport: publish: transport: publish: connection refused") ∧
    ¬ RoundTrips (fun _ => true) (.transportError (lit "publish") (some (lit "connection refused"))) := by
  refine ⟨by decide, ?_⟩
  intro trips
  have first : (errorEnvelope (fun _ => true) (rebuild (fun _ => true)
      (.transportError (lit "publish") (some (lit "connection refused"))))).same
      (errorEnvelope (fun _ => true) (.transportError (lit "publish") (some (lit "connection refused")))) := trips 1
  have texts := ((error_envelope_same_iff _ _ _).mp first).2.1
  exact absurd texts (by decide)

end Brainkit.Sdk
