import Mathlib.Data.Bool.AllAny
import Brainkit.Library.Ecma
import Brainkit.Library.GoText

set_option autoImplicit false

universe u

namespace Brainkit.Packages

open Ecma GoText

inductive ScanState (α : Type u) where
  | normal
  | literal (quote : α)
  | lineComment
  | blockComment

def importText : List Char := ['i', 'm', 'p', 'o', 'r', 't', '(']

def importEscaped : List Char := ['i', 'm', 'p', 'o', 'r', 't', '\\', 'u', '0', '0', '2', '8']

-- The loop, over any alphabet with the ASCII characters: Go runs it over bytes. skip is how many of the next characters
-- the index has jumped over.
@[simp] def scanFrom {α : Type u} [DecidableEq α] (sym : Char → α) : ScanState α → Bool → Nat → List α → List α
  | _, _, _, [] => []
  | state, escaped, skip + 1, _ :: rest => scanFrom sym state escaped skip rest
  | .normal, escaped, 0, c :: rest =>
      if c = sym '\'' then c :: scanFrom sym (.literal (sym '\'')) escaped 0 rest
      else if c = sym '"' then c :: scanFrom sym (.literal (sym '"')) escaped 0 rest
      else if c = sym '`' then c :: scanFrom sym (.literal (sym '`')) escaped 0 rest
      else if c = sym '/' ∧ rest.head? = some (sym '/') then c :: sym '/' :: scanFrom sym .lineComment escaped 1 rest
      else if c = sym '/' ∧ rest.head? = some (sym '*') then c :: sym '*' :: scanFrom sym .blockComment escaped 1 rest
      else c :: scanFrom sym .normal escaped 0 rest
  | .literal quote, escaped, 0, c :: rest =>
      if importText.map sym <+: c :: rest then importEscaped.map sym ++ scanFrom sym (.literal quote) escaped 6 rest
      else if escaped then c :: scanFrom sym (.literal quote) false 0 rest
      else if c = sym '\\' then c :: scanFrom sym (.literal quote) true 0 rest
      else if c = quote then c :: scanFrom sym .normal escaped 0 rest
      else c :: scanFrom sym (.literal quote) escaped 0 rest
  | .lineComment, escaped, 0, c :: rest =>
      if importText.map sym <+: c :: rest then importEscaped.map sym ++ scanFrom sym .lineComment escaped 6 rest
      else if c = sym '\n' then c :: scanFrom sym .normal escaped 0 rest
      else c :: scanFrom sym .lineComment escaped 0 rest
  | .blockComment, escaped, 0, c :: rest =>
      if importText.map sym <+: c :: rest then importEscaped.map sym ++ scanFrom sym .blockComment escaped 6 rest
      else if c = sym '*' ∧ rest.head? = some (sym '/') then c :: sym '/' :: scanFrom sym .normal escaped 1 rest
      else c :: scanFrom sym .blockComment escaped 0 rest

def sanitizeSESRejectedImportText (code : GoString) : GoString := scanFrom asciiByte .normal false 0 code

abbrev scanText (state : ScanState Char) (escaped : Bool) (skip : Nat) (text : List Char) : List Char :=
  scanFrom id state escaped skip text

section

variable (escaped : Bool) (c : Char) (rest : List Char)

theorem scanText_normal : scanText .normal escaped 0 (c :: rest) =
    if c = '\'' then c :: scanText (.literal '\'') escaped 0 rest
    else if c = '"' then c :: scanText (.literal '"') escaped 0 rest
    else if c = '`' then c :: scanText (.literal '`') escaped 0 rest
    else if c = '/' ∧ rest.head? = some '/' then c :: '/' :: scanText .lineComment escaped 1 rest
    else if c = '/' ∧ rest.head? = some '*' then c :: '*' :: scanText .blockComment escaped 1 rest
    else c :: scanText .normal escaped 0 rest := by
  simp only [scanText, scanFrom, id_eq]

theorem scanText_literal (quote : Char) : scanText (.literal quote) escaped 0 (c :: rest) =
    if importText <+: c :: rest then importEscaped ++ scanText (.literal quote) escaped 6 rest
    else if escaped then c :: scanText (.literal quote) false 0 rest
    else if c = '\\' then c :: scanText (.literal quote) true 0 rest
    else if c = quote then c :: scanText .normal escaped 0 rest
    else c :: scanText (.literal quote) escaped 0 rest := by
  simp only [scanText, scanFrom, List.map_id, id_eq]

theorem scanText_lineComment : scanText .lineComment escaped 0 (c :: rest) =
    if importText <+: c :: rest then importEscaped ++ scanText .lineComment escaped 6 rest
    else if c = '\n' then c :: scanText .normal escaped 0 rest
    else c :: scanText .lineComment escaped 0 rest := by
  simp only [scanText, scanFrom, List.map_id, id_eq]

theorem scanText_blockComment : scanText .blockComment escaped 0 (c :: rest) =
    if importText <+: c :: rest then importEscaped ++ scanText .blockComment escaped 6 rest
    else if c = '*' ∧ rest.head? = some '/' then c :: '/' :: scanText .normal escaped 1 rest
    else c :: scanText .blockComment escaped 0 rest := by
  simp only [scanText, scanFrom, List.map_id, id_eq]

theorem scanText_skip (state : ScanState Char) (skip : Nat) :
    scanText state escaped (skip + 1) (c :: rest) = scanText state escaped skip rest := by
  cases state <;> rfl

end

def ScanState.bytes : ScanState Char → ScanState UInt8
  | normal => .normal
  | literal quote => .literal (asciiByte quote)
  | lineComment => .lineComment
  | blockComment => .blockComment

def ScanState.Quoted : ScanState Char → Prop
  | literal quote => quote = '\'' ∨ quote = '"' ∨ quote = '`'
  | _ => True

theorem encode_ascii_cons {c : Char} (ascii : Ecma.Ascii c) (text : List Char) : encode (c :: text) = asciiByte c :: encode text := by
  rw [encode_cons, encode_ascii ascii]
  rfl

theorem encode_ascii_text {text : List Char} (ascii : ∀ c ∈ text, Ecma.Ascii c) (rest : List Char) :
    encode (text ++ rest) = text.map asciiByte ++ encode rest := by
  induction text with
  | nil => rfl
  | cons c text ih =>
      rw [List.cons_append, encode_ascii_cons (ascii c List.mem_cons_self), ih fun d member => ascii d (List.mem_cons_of_mem c member)]
      rfl

theorem asciiByte_ne_high {c : Char} (ascii : Ecma.Ascii c) {byte : UInt8} (high : 128 ≤ byte) : byte ≠ asciiByte c := by
  rintro rfl
  exact absurd (asciiByte_lt ascii) (UInt8.not_lt.mpr high)

theorem prefix_encode_iff {word : List Char} (ascii : ∀ c ∈ word, Ecma.Ascii c) (text : List Char) :
    word.map asciiByte <+: encode text ↔ word <+: text := by
  induction word generalizing text with
  | nil => simp
  | cons a word ih =>
      have first := ascii a List.mem_cons_self
      have later := ih fun c member => ascii c (List.mem_cons_of_mem a member)
      cases text with
      | nil => simp [encode]
      | cons c text =>
          by_cases here : Ecma.Ascii c
          · rw [encode_ascii_cons here, List.map_cons, List.cons_prefix_cons, List.cons_prefix_cons, asciiByte_inj first here, later]
          · refine iff_of_false (fun starts => ?_) fun starts => here ((List.cons_prefix_cons.mp starts).1 ▸ first)
            rw [encode_cons] at starts
            obtain ⟨byte, bytes, same⟩ := List.exists_cons_of_ne_nil (String.utf8EncodeChar_ne_nil (c := c))
            have member : byte ∈ String.utf8EncodeChar c := same ▸ List.mem_cons_self
            rw [same, List.map_cons, List.cons_append, List.cons_prefix_cons] at starts
            exact asciiByte_ne_high first (encode_high here member) starts.1.symm

theorem head_encode_iff {a : Char} (ascii : Ecma.Ascii a) (text : List Char) :
    (encode text).head? = some (asciiByte a) ↔ text.head? = some a := by
  have starts {α : Type} (b : α) (l : List α) : [b] <+: l ↔ l.head? = some b := by
    cases l with
    | nil => simp
    | cons c l => simp [List.cons_prefix_cons, eq_comm]
  rw [← starts, ← starts]
  exact prefix_encode_iff (by simpa using ascii : ∀ c ∈ [a], Ecma.Ascii c) text

def specials : List Char := ['\'', '"', '`', '/', '\\', '\n', '*', 'i']

def ScanState.after {α : Type u} (escaped : Bool) : ScanState α → Bool
  | literal _ => false
  | _ => escaped

section

variable {α : Type u} [DecidableEq α] {sym : Char → α}

omit [DecidableEq α] in
theorem starts_other {c : α} (other : c ≠ sym 'i') (rest : List α) : ¬ importText.map sym <+: c :: rest :=
  fun starts => other (List.cons_prefix_cons.mp starts).1.symm

theorem scan_other {c : α} (plain : ∀ d ∈ specials, c ≠ sym d) (state : ScanState α)
    (open' : ∀ quote, state = .literal quote → c ≠ quote) (escaped : Bool) (rest : List α) :
    scanFrom sym state escaped 0 (c :: rest) = c :: scanFrom sym state (state.after escaped) 0 rest := by
  have starts := starts_other (plain 'i' (by decide)) rest
  cases state with
  | normal =>
      simp only [scanFrom, if_neg (plain '\'' (by decide)), if_neg (plain '"' (by decide)), if_neg (plain '`' (by decide)),
        plain '/' (by decide), false_and, if_false, ScanState.after]
  | literal quote =>
      cases escaped with
      | true => simp only [scanFrom, if_neg starts, if_true, ScanState.after]
      | false =>
          simp only [scanFrom, if_neg starts, Bool.false_eq_true, if_false, if_neg (plain '\\' (by decide)),
            if_neg (open' quote rfl), ScanState.after]
  | lineComment => simp only [scanFrom, if_neg starts, if_neg (plain '\n' (by decide)), ScanState.after]
  | blockComment => simp only [scanFrom, if_neg starts, plain '*' (by decide), false_and, if_false, ScanState.after]

end

theorem ascii_specials : ∀ d ∈ specials, Ecma.Ascii d := List.all_iff_forall_prop.mp (by decide)

theorem quoted_mem {state : ScanState Char} (quoted : state.Quoted) {quote : Char} (same : state = .literal quote) :
    quote ∈ specials := by
  subst same
  rcases quoted with rfl | rfl | rfl <;> decide

theorem unquoted_high {state : ScanState Char} (quoted : state.Quoted) {byte : UInt8} (high : 128 ≤ byte) (quote : UInt8)
    (same : state.bytes = .literal quote) : byte ≠ quote := by
  cases state with
  | literal quote =>
      cases same
      exact asciiByte_ne_high (ascii_specials _ (quoted_mem quoted rfl)) high
  | _ => cases same

theorem scan_high {byte : UInt8} {bytes : List UInt8} (high : ∀ b ∈ byte :: bytes, 128 ≤ b) {state : ScanState Char}
    (quoted : state.Quoted) (escaped : Bool) (rest : GoString) :
    scanFrom asciiByte state.bytes escaped 0 (byte :: bytes ++ rest) =
      byte :: bytes ++ scanFrom asciiByte state.bytes (state.after escaped) 0 rest := by
  have kept (escaped : Bool) : state.bytes.after escaped = state.after escaped := by cases state <;> rfl
  have spent (escaped : Bool) : state.after (state.after escaped) = state.after escaped := by cases state <;> rfl
  induction bytes generalizing byte escaped with
  | nil =>
      have above := high byte List.mem_cons_self
      exact (scan_other (fun d member => asciiByte_ne_high (ascii_specials d member) above) state.bytes
        (unquoted_high quoted above) escaped rest).trans (by rw [kept]; rfl)
  | cons next bytes ih =>
      have above := high byte List.mem_cons_self
      rw [List.cons_append, scan_other (fun d member => asciiByte_ne_high (ascii_specials d member) above) state.bytes
        (unquoted_high quoted above), kept, ih (fun b member => high b (List.mem_cons_of_mem byte member)), spent]
      rfl

theorem ascii_head {a : Char} (ascii : Ecma.Ascii a) {rest : List Char} (head : rest.head? = some a) :
    ∀ c ∈ rest.take 1, Ecma.Ascii c := by
  cases rest with
  | nil => cases head
  | cons b rest =>
      cases head
      simpa using ascii

theorem import_tail {c : Char} {rest : List Char} (starts : importText <+: c :: rest) :
    ∃ tail, rest = ['m', 'p', 'o', 'r', 't', '('] ++ tail := by
  obtain ⟨tail, same⟩ := starts
  exact ⟨tail, (List.cons.inj same).2.symm⟩

theorem scan_encode (text : List Char) {state : ScanState Char} (quoted : state.Quoted) (escaped : Bool) (skip : Nat)
    (ascii : ∀ c ∈ text.take skip, Ecma.Ascii c) :
    scanFrom asciiByte state.bytes escaped skip (encode text) = encode (scanText state escaped skip text) := by
  induction text generalizing state escaped skip with
  | nil => simp only [encode, scanText, List.flatMap_nil, scanFrom]
  | cons c text ih =>
      cases skip with
      | succ skip =>
          rw [List.take_succ_cons] at ascii
          rw [encode_ascii_cons (ascii c List.mem_cons_self), scanFrom, scanText, scanFrom]
          exact ih quoted escaped skip fun d member => ascii d (List.mem_cons_of_mem c member)
      | zero =>
          have next (state : ScanState Char) (quoted : state.Quoted) (escaped : Bool) :=
            ih quoted escaped 0 (by simp)
          by_cases here : Ecma.Ascii c
          · have equals (d : Char) (special : d ∈ specials) : asciiByte c = asciiByte d ↔ c = d :=
              asciiByte_inj here (ascii_specials d special)
            have head (d : Char) (special : d ∈ specials) := head_encode_iff (ascii_specials d special) text
            have starts : importText.map asciiByte <+: asciiByte c :: encode text ↔ importText <+: c :: text := by
              rw [← encode_ascii_cons here]
              exact prefix_encode_iff (List.all_iff_forall_prop.mp (by decide)) (c :: text)
            have one (d : Char) (special : d ∈ specials) (head : text.head? = some d) (state : ScanState Char)
                (quoted : state.Quoted) :=
              ih quoted escaped 1 (ascii_head (ascii_specials d special) head)
            have six (starts : importText <+: c :: text) :
                importEscaped.map asciiByte ++ scanFrom asciiByte state.bytes escaped 6 (encode text) =
                  encode (importEscaped ++ scanText state escaped 6 text) := by
              rw [encode_ascii_text (List.all_iff_forall_prop.mp (by decide)), ih quoted escaped 6]
              obtain ⟨tail, rfl⟩ := import_tail starts
              simp only [List.cons_append, List.take_succ_cons, List.take_zero]
              exact List.all_iff_forall_prop.mp (by decide)
            rw [encode_ascii_cons here]
            cases state with
            | normal =>
                simp only [ScanState.bytes, scanText, scanFrom, id_eq, equals '\'' (by decide), equals '"' (by decide),
                  equals '`' (by decide), equals '/' (by decide), head '/' (by decide), head '*' (by decide)]
                split_ifs with h1 h2 h3 h4 h5
                · subst h1
                  rw [encode_ascii_cons here]
                  exact congrArg _ (next (.literal '\'') (.inl rfl) escaped)
                · subst h2
                  rw [encode_ascii_cons here]
                  exact congrArg _ (next (.literal '"') (.inr (.inl rfl)) escaped)
                · subst h3
                  rw [encode_ascii_cons here]
                  exact congrArg _ (next (.literal '`') (.inr (.inr rfl)) escaped)
                · rw [encode_ascii_cons here, encode_ascii_cons (by decide)]
                  exact congrArg _ (congrArg _ (one '/' (by decide) h4.2 .lineComment trivial))
                · rw [encode_ascii_cons here, encode_ascii_cons (by decide)]
                  exact congrArg _ (congrArg _ (one '*' (by decide) h5.2 .blockComment trivial))
                · rw [encode_ascii_cons here]
                  exact congrArg _ (next .normal trivial escaped)
            | literal quote =>
                have ends : asciiByte c = asciiByte quote ↔ c = quote := equals quote (quoted_mem quoted rfl)
                simp only [ScanState.bytes, scanText, scanFrom, id_eq, List.map_id, starts, equals '\\' (by decide), ends] at six ⊢
                split_ifs with h1 h2 h3 h4
                · exact six h1
                · rw [encode_ascii_cons here]
                  exact congrArg _ (next (.literal quote) quoted false)
                · rw [encode_ascii_cons here]
                  exact congrArg _ (next (.literal quote) quoted true)
                · rw [encode_ascii_cons here]
                  exact congrArg _ (next .normal trivial escaped)
                · rw [encode_ascii_cons here]
                  exact congrArg _ (next (.literal quote) quoted escaped)
            | lineComment =>
                simp only [ScanState.bytes, scanText, scanFrom, id_eq, List.map_id, starts, equals '\n' (by decide)] at six ⊢
                split_ifs with h1 h2
                · exact six h1
                · rw [encode_ascii_cons here]
                  exact congrArg _ (next .normal trivial escaped)
                · rw [encode_ascii_cons here]
                  exact congrArg _ (next .lineComment trivial escaped)
            | blockComment =>
                simp only [ScanState.bytes, scanText, scanFrom, id_eq, List.map_id, starts, equals '*' (by decide),
                  head '/' (by decide)] at six ⊢
                split_ifs with h1 h2
                · exact six h1
                · rw [encode_ascii_cons here, encode_ascii_cons (by decide)]
                  exact congrArg _ (congrArg _ (one '/' (by decide) h2.2 .normal trivial))
                · rw [encode_ascii_cons here]
                  exact congrArg _ (next .blockComment trivial escaped)
          · have other (d : Char) (special : d ∈ specials) : c ≠ id d := fun same => here (same ▸ ascii_specials d special)
            have ends (quote : Char) (same : state = .literal quote) : c ≠ quote := other quote (quoted_mem quoted same)
            obtain ⟨byte, bytes, first⟩ := List.exists_cons_of_ne_nil (String.utf8EncodeChar_ne_nil (c := c))
            have high (b : UInt8) (member : b ∈ byte :: bytes) : 128 ≤ b := encode_high here (first ▸ member)
            have plain : scanText state escaped 0 (c :: text) = c :: scanText state (state.after escaped) 0 text :=
              scan_other other state ends escaped text
            rw [encode_cons, first, scan_high high quoted, next state quoted, plain, encode_cons, first]

end Brainkit.Packages
