import Brainkit.Library.Replacement
import Brainkit.Packages.Sanitizer

set_option autoImplicit false

namespace Brainkit.Packages

open Ecma GoText Replacement

def portText : List Char := ['m', 'p', 'o', 'r', 't', '(']

def portEscaped : List Char := ['m', 'p', 'o', 'r', 't', '\\', 'u', '0', '0', '2', '8']

def portItems : List Item := ['m', 'p', 'o', 'r', 't'].map .raw ++ [.escape (.unicode '0' '0' '2' '8')]

def fixText (text : List Char) : List Char := replaced 'i' portText portEscaped text

def fixItems (items : List Item) : List Item := replaced (.raw 'i') (portText.map .raw) portItems items

def fixElement : Element → Element
  | .string quote items => .string quote (fixItems items)
  | .template continued items opens => .template continued (fixItems items) opens
  | .lineComment text ending => .lineComment (fixText text) ending
  | .blockComment text => .blockComment (fixText text)
  | e => e

def Unmixed : List Item → Prop
  | .escape e :: rest => ¬ importText <+: e.text ++ itemsText rest ∧ Unmixed rest
  | _ :: rest => Unmixed rest
  | [] => True

def quotes : List Char := ['\'', '"', '`']

def Passes (inside : Bool) (rest : List Char) : Element → Prop
  | .code c => inside = true → c ≠ '\\' ∧ ¬ importText <+: c :: rest
  | .string _ items => Unmixed items ∧ (inside = true → .raw '`' ∉ items)
  | .template continued items _ => continued = inside ∧ Unmixed items
  | .lineComment text ending =>
      if inside = true then '`' ∉ text ∧ '\\' ∉ text else ending = .feed ∨ ending = .carriageFeed ∨ ending = .eof
  | .blockComment text => inside = true → '`' ∉ text ∧ '\\' ∉ text
  | .regex parts =>
      if inside = true then .raw '`' ∉ parts ∧ ¬ importText <:+: parts.flatMap RegexPart.text
      else (∀ c ∈ parts.flatMap RegexPart.text, c ∉ quotes) ∧
        (('/' :: parts.flatMap RegexPart.text ++ ['/']) ++ rest.head?.toList).IsChain fun a b => ¬ OpensComment a b

def leads (inside : Bool) : Element → Bool
  | .template _ _ opens => opens
  | _ => inside

inductive Tame : Bool → List Element → Prop where
  | stop {inside : Bool} {program : List Element} (never : ¬ importText <:+: programText program) : Tame inside program
  | step {inside : Bool} {e : Element} {program : List Element} (passes : Passes inside (programText program) e)
      (rest : Tame (leads inside e) program) : Tame inside (e :: program)

def Preserves (program : List Element) : Prop :=
  ∃ program', List.Forall₂ SameToken program program' ∧ Lexed program' ∧
    (∀ e ∈ program', ¬ importText <:+: e.inner) ∧
    sanitizeSESRejectedImportText (encode (programText program)) = encode (programText program')

section

variable {text tail : List Char} {items : List Item} {quote : Char}

theorem not_prefix_edge {a : Char} {word : List Char} (edge : ∀ c ∈ tail.head?, c ∉ a :: word) : ¬ a :: word <+: tail := by
  rintro ⟨later, rfl⟩
  exact edge a rfl List.mem_cons_self

theorem edge_tail {a : Char} {word : List Char} (edge : ∀ c ∈ tail.head?, c ∉ a :: word) : ∀ c ∈ tail.head?, c ∉ word :=
  fun c member inside => edge c member (List.mem_cons_of_mem a inside)

theorem prefix_of_edge {word : List Char} (edge : ∀ c ∈ tail.head?, c ∉ word) (starts : word <+: text ++ tail) :
    word <+: text := by
  induction word generalizing text with
  | nil => exact List.nil_prefix
  | cons a word ih =>
      cases text with
      | nil => exact absurd starts (not_prefix_edge edge)
      | cons b text =>
          obtain ⟨same, later⟩ := List.cons_prefix_cons.mp starts
          exact List.cons_prefix_cons.mpr ⟨same, ih (edge_tail edge) later⟩

theorem raws_of_starts {word : List Char} (edge : ∀ c ∈ tail.head?, c ∉ word) (escape : '\\' ∉ word) (carriage : '\r' ∉ word)
    (starts : word <+: itemsText items ++ tail) : word.map Item.raw <+: items := by
  induction word generalizing items with
  | nil => exact List.nil_prefix
  | cons a word ih =>
      rw [List.mem_cons, not_or] at escape carriage
      cases items with
      | nil => exact absurd starts (not_prefix_edge edge)
      | cons item items =>
          cases item with
          | raw c =>
              obtain ⟨same, later⟩ := List.cons_prefix_cons.mp starts
              rw [List.map_cons, same]
              exact List.cons_prefix_cons.mpr ⟨rfl, ih (edge_tail edge) escape.2 carriage.2 later⟩
          | escape e => exact absurd (List.cons_prefix_cons.mp starts).1.symm escape.1
          | carriage feed => cases feed <;> exact absurd (List.cons_prefix_cons.mp starts).1.symm carriage.1

def marks : List Char := ['i', '\\', '\'', '"', '`']

theorem quotes_marks : ∀ c ∈ quotes, c ∈ marks := List.all_iff_forall_prop.mp (by decide)

theorem scan_import {state : ScanState Char} (literal : state ≠ .normal) (tail : List Char) :
    scanText state false 0 (importText ++ tail) = importEscaped ++ scanText state false 0 tail := by
  have starts : importText <+: 'i' :: (portText ++ tail) := List.prefix_append importText tail
  have skipped : scanText state false 6 (portText ++ tail) = scanText state false 0 tail := by
    simp only [portText, List.cons_append, List.nil_append, scanText_skip]
  rw [← skipped]
  change scanText state false 0 ('i' :: (portText ++ tail)) = _
  cases state with
  | normal => exact absurd rfl literal
  | literal quote => rw [scanText_literal, if_pos starts]
  | lineComment => rw [scanText_lineComment, if_pos starts]
  | blockComment => rw [scanText_blockComment, if_pos starts]

theorem scan_literal {c : Char} (other : c ≠ quote) (plain : c ≠ '\\') (starts : ¬ importText <+: c :: tail) :
    scanText (.literal quote) false 0 (c :: tail) = c :: scanText (.literal quote) false 0 tail := by
  rw [scanText_literal, if_neg starts, if_neg Bool.false_ne_true, if_neg plain, if_neg other]

theorem not_starts {c : Char} (other : c ≠ 'i') : ¬ importText <+: c :: tail :=
  fun starts => other (List.cons_prefix_cons.mp starts).1.symm

theorem scan_inert (quoted : quote ∈ quotes) (inert : ∀ c ∈ text, c ∉ marks) (tail : List Char) :
    scanText (.literal quote) false 0 (text ++ tail) = text ++ scanText (.literal quote) false 0 tail := by
  induction text with
  | nil => rfl
  | cons c text ih =>
      have here := inert c List.mem_cons_self
      have other (d : Char) (mark : d ∈ marks) : c ≠ d := fun same => here (same ▸ mark)
      rw [List.cons_append, scan_literal (other quote (quotes_marks quote quoted)) (other '\\' (by decide))
        (not_starts (other 'i' (by decide))), ih fun d member => inert d (List.mem_cons_of_mem c member)]
      rfl

theorem escape_text {e : Escape} (wf : e.Wf) : ∃ c more, e.text = c :: more ∧ ∀ d ∈ more, d ∉ marks := by
  have hex : ∀ d ∈ Ecma.hexDigits, d ∉ marks := List.all_iff_forall_prop.mp (by decide)
  have octal : ∀ d ∈ Ecma.octalDigits, d ∉ marks := List.all_iff_forall_prop.mp (by decide)
  cases e with
  | single c => exact ⟨c, [], rfl, nofun⟩
  | carriage => exact ⟨'\r', ['\n'], rfl, List.all_iff_forall_prop.mp (by decide)⟩
  | hex a b => exact ⟨'x', [a, b], rfl, by simpa using ⟨hex a wf.1, hex b wf.2⟩⟩
  | unicode a b c d =>
      exact ⟨'u', [a, b, c, d], rfl, by simpa using ⟨hex a wf.1, hex b wf.2.1, hex c wf.2.2.1, hex d wf.2.2.2⟩⟩
  | braced digits =>
      refine ⟨'u', '{' :: (digits ++ ['}']), rfl, fun d member => ?_⟩
      rw [List.mem_cons, List.mem_append, List.mem_singleton] at member
      rcases member with rfl | inside | rfl
      · decide
      · exact hex d (wf.2.1 d inside)
      · decide
  | octal digits =>
      obtain ⟨some, all⟩ := wf
      cases digits with
      | nil => exact absurd rfl some
      | cons c digits => exact ⟨c, digits, rfl, fun d member => octal d (all d (List.mem_cons_of_mem c member))⟩

theorem scan_escape (quoted : quote ∈ quotes) {e : Escape} (wf : e.Wf) (unmixed : ¬ importText <+: e.text ++ tail) :
    scanText (.literal quote) false 0 ('\\' :: (e.text ++ tail)) =
      '\\' :: (e.text ++ scanText (.literal quote) false 0 tail) := by
  obtain ⟨c, more, same, inert⟩ := escape_text wf
  rw [same, List.cons_append] at unmixed
  rw [same, List.cons_append, scanText_literal, if_neg (not_starts (by decide)), if_neg Bool.false_ne_true, if_pos rfl,
    scanText_literal, if_neg unmixed, if_pos rfl, scan_inert quoted inert]
  rfl

def Within (quote : Char) : Item → Prop
  | .raw c => c ≠ quote ∧ c ≠ '\\'
  | .escape e => e.Wf
  | .carriage _ => True

theorem items_append (before after : List Item) : itemsText (before ++ after) = itemsText before ++ itemsText after :=
  List.flatMap_append

theorem unmixed_tail {before : List Item} (unmixed : Unmixed (before ++ items)) : Unmixed items := by
  induction before with
  | nil => exact unmixed
  | cons item before ih =>
      cases item with
      | escape e => exact ih unmixed.2
      | raw c => exact ih unmixed
      | carriage feed => exact ih unmixed

def importItems : List Item := importText.map .raw

theorem import_items (items : List Item) : itemsText (importItems ++ items) = importText ++ itemsText items :=
  items_append importItems items

theorem fixItems_word (items : List Item) : itemsText (fixItems (importItems ++ items)) = importEscaped ++ itemsText (fixItems items) :=
  (congrArg itemsText (replaced_word items)).trans (items_append (.raw 'i' :: portItems) (fixItems items))

theorem fixItems_other {item : Item} (other : ¬ importItems <+: item :: items) :
    fixItems (item :: items) = item :: fixItems items :=
  replaced_other other

theorem fixText_word (text : List Char) : fixText (importText ++ text) = importEscaped ++ fixText text :=
  replaced_word text

theorem fixText_other {c : Char} (other : ¬ importText <+: c :: text) : fixText (c :: text) = c :: fixText text :=
  replaced_other other

theorem scan_items (quoted : quote ∈ quotes) (edge : ∀ c ∈ tail.head?, c ∉ importText)
    (inside : ∀ item ∈ items, Within quote item) (unmixed : Unmixed items) :
    scanText (.literal quote) false 0 (itemsText items ++ tail) =
      itemsText (fixItems items) ++ scanText (.literal quote) false 0 tail := by
  induction items using replaced_induction (a := Item.raw 'i') (w := portText.map Item.raw) with
  | nil => rw [fixItems, replaced_nil]; rfl
  | word items ih =>
      change ∀ item ∈ importItems ++ items, Within quote item at inside
      change Unmixed (importItems ++ items) at unmixed
      change scanText (.literal quote) false 0 (itemsText (importItems ++ items) ++ tail) =
        itemsText (fixItems (importItems ++ items)) ++ scanText (.literal quote) false 0 tail
      have later := ih (fun item member => inside item (List.mem_append_right _ member)) (unmixed_tail unmixed)
      rw [import_items, fixItems_word, List.append_assoc, scan_import (by nofun), later, List.append_assoc]
  | other item items other ih =>
      have later := ih fun item member => inside item (List.mem_cons_of_mem _ member)
      rw [fixItems_other other]
      cases item with
      | raw c =>
          obtain ⟨ends, plain⟩ := inside (.raw c) List.mem_cons_self
          have starts : ¬ importText <+: itemsText (.raw c :: items) ++ tail := fun starts =>
            other (raws_of_starts edge (by decide) (by decide) starts)
          exact (scan_literal ends plain starts).trans (congrArg _ (later unmixed))
      | escape e =>
          have apart : ¬ importText <+: e.text ++ (itemsText items ++ tail) := by
            rw [← List.append_assoc]
            exact fun starts => unmixed.1 (prefix_of_edge edge starts)
          have scanned := scan_escape quoted (inside (.escape e) List.mem_cons_self) apart
          rw [later unmixed.2, ← List.append_assoc, ← List.append_assoc] at scanned
          exact scanned
      | carriage feed =>
          have inert : ∀ c ∈ (Item.carriage feed).text, c ∉ marks := by
            cases feed <;> exact List.all_iff_forall_prop.mp (by decide)
          have scanned := scan_inert quoted inert (itemsText items ++ tail)
          rw [later unmixed, ← List.append_assoc, ← List.append_assoc] at scanned
          exact scanned

theorem scan_fixed {state : ScanState Char} (literal : state ≠ .normal) (edge : ∀ c ∈ tail.head?, c ∉ importText)
    (kept : ∀ c after, c :: after <:+ text → ¬ importText <+: c :: (after ++ tail) →
      scanText state false 0 (c :: (after ++ tail)) = c :: scanText state false 0 (after ++ tail)) :
    scanText state false 0 (text ++ tail) = fixText text ++ scanText state false 0 tail := by
  induction text using replaced_induction (a := 'i') (w := portText) with
  | nil => rw [fixText, replaced_nil]; rfl
  | word text ih =>
      have suffix : text <:+ importText ++ text := List.suffix_append importText text
      have later := ih fun c after here => kept c after (here.trans suffix)
      change scanText state false 0 (importText ++ text ++ tail) = fixText (importText ++ text) ++ _
      rw [fixText_word, List.append_assoc, scan_import literal, later, List.append_assoc]
  | other c text other ih =>
      have later := ih fun d after suffix => kept d after (suffix.trans (List.suffix_cons c text))
      have starts : ¬ importText <+: c :: (text ++ tail) := fun starts => other (prefix_of_edge edge starts)
      rw [List.cons_append, kept c text (List.suffix_refl _) starts, later, fixText_other other]
      rfl

theorem scan_code (plain : ∀ c ∈ text, c ∉ quotes)
    (apart : (text ++ tail.head?.toList).IsChain fun a b => ¬ OpensComment a b) :
    scanText .normal false 0 (text ++ tail) = text ++ scanText .normal false 0 tail := by
  induction text with
  | nil => rfl
  | cons c text ih =>
      have here := plain c List.mem_cons_self
      have other (d : Char) (quote : d ∈ quotes) : c ≠ d := fun same => here (same ▸ quote)
      rw [List.cons_append, List.isChain_cons] at apart
      have next (d : Char) (opens : d = '/' ∨ d = '*') : ¬ (c = '/' ∧ (text ++ tail).head? = some d) := by
        rintro ⟨slash, follows⟩
        refine apart.1 d ?_ ⟨slash, opens⟩
        cases text with
        | nil =>
            rw [List.nil_append] at follows ⊢
            rw [follows]
            rfl
        | cons e text => exact follows
      rw [List.cons_append, scanText_normal, if_neg (other '\'' (by decide)), if_neg (other '"' (by decide)),
        if_neg (other '`' (by decide)), if_neg (next '/' (.inl rfl)), if_neg (next '*' (.inr rfl)),
        ih (fun d member => plain d (List.mem_cons_of_mem c member)) apart.2]
      rfl

theorem quote_outside : ∀ quote ∈ quotes, quote ∉ importText ∧ quote ≠ '\\' := List.all_iff_forall_prop.mp (by decide)

theorem edge_nil : ∀ d ∈ ([] : List Char).head?, d ∉ importText := fun d member => by cases member

theorem edge_cons {c : Char} (outside : c ∉ importText) (tail : List Char) : ∀ d ∈ (c :: tail).head?, d ∉ importText := by
  rintro d ⟨⟩
  exact outside

theorem scan_opens (quoted : quote ∈ quotes) (tail : List Char) :
    scanText .normal false 0 (quote :: tail) = quote :: scanText (.literal quote) false 0 tail := by
  rw [scanText_normal]
  simp only [quotes, List.mem_cons, List.not_mem_nil, or_false] at quoted
  rcases quoted with rfl | rfl | rfl <;> rfl

theorem scan_closes (quoted : quote ∈ quotes) (tail : List Char) :
    scanText (.literal quote) false 0 (quote :: tail) = quote :: scanText .normal false 0 tail := by
  obtain ⟨outside, plain⟩ := quote_outside quote quoted
  have other : quote ≠ 'i' := fun same => outside (same ▸ List.mem_cons_self)
  rw [scanText_literal, if_neg (not_starts other), if_neg Bool.false_ne_true, if_neg plain, if_pos rfl]

theorem scan_buried (backtick : '`' ∉ text) (backslash : '\\' ∉ text) (edge : ∀ c ∈ tail.head?, c ∉ importText) :
    scanText (.literal '`') false 0 (text ++ tail) = fixText text ++ scanText (.literal '`') false 0 tail := by
  refine scan_fixed (by nofun) edge fun c after suffix starts => ?_
  have member : c ∈ text := suffix.subset List.mem_cons_self
  exact scan_literal (fun same => backtick (same ▸ member)) (fun same => backslash (same ▸ member)) starts

theorem scan_lineComment (plain : '\n' ∉ text) (edge : ∀ c ∈ tail.head?, c ∉ importText) :
    scanText .normal false 0 ('/' :: '/' :: (text ++ tail)) =
      '/' :: '/' :: (fixText text ++ scanText .lineComment false 0 tail) := by
  have fixed : scanText .lineComment false 0 (text ++ tail) = fixText text ++ scanText .lineComment false 0 tail := by
    refine scan_fixed (by nofun) edge fun c after suffix starts => ?_
    have member : c ∈ text := suffix.subset List.mem_cons_self
    have feed : c ≠ '\n' := fun same => plain (same ▸ member)
    rw [scanText_lineComment, if_neg starts, if_neg feed]
  rw [← fixed, scanText_normal]
  simp only [List.head?_cons, scanText_skip]
  rfl

theorem scan_blockComment (closed : text.IsChain fun a b => ¬ (a = '*' ∧ b = '/')) (tail : List Char) :
    scanText .normal false 0 ('/' :: '*' :: (text ++ '*' :: '/' :: tail)) =
      '/' :: '*' :: (fixText text ++ '*' :: '/' :: scanText .normal false 0 tail) := by
  have fixed : scanText .blockComment false 0 (text ++ '*' :: '/' :: tail) =
      fixText text ++ scanText .blockComment false 0 ('*' :: '/' :: tail) := by
    refine scan_fixed (by nofun) (edge_cons (by decide) _) fun c after suffix starts => ?_
    have inside : ¬ (c = '*' ∧ (after ++ '*' :: '/' :: tail).head? = some '/') := by
      rintro ⟨star, slash⟩
      cases after with
      | nil => cases slash
      | cons d after =>
          cases slash
          have chain := closed.infix suffix.isInfix
          exact (List.isChain_cons_cons.mp chain).1 ⟨star, rfl⟩
    rw [scanText_blockComment, if_neg starts, if_neg inside]
  have ends : scanText .blockComment false 0 ('*' :: '/' :: tail) = '*' :: '/' :: scanText .normal false 0 tail := by
    rw [scanText_blockComment, if_neg (not_starts (by decide)), if_pos ⟨rfl, rfl⟩, scanText_skip]
  rw [← ends, ← fixed, scanText_normal]
  simp only [List.head?_cons, scanText_skip]
  rfl

theorem scan_regex {parts : List RegexPart} (raws : ∀ part ∈ parts, ∀ c, part = .raw c → c ≠ '\\')
    (backtick : .raw '`' ∉ parts)
    (never : ¬ importText <:+: parts.flatMap RegexPart.text) (edge : ∀ c ∈ tail.head?, c ∉ importText) :
    scanText (.literal '`') false 0 (parts.flatMap RegexPart.text ++ tail) =
      parts.flatMap RegexPart.text ++ scanText (.literal '`') false 0 tail := by
  induction parts with
  | nil => rfl
  | cons part parts ih =>
      rw [List.flatMap_cons] at never
      have later := ih (fun p member => raws p (List.mem_cons_of_mem part member))
        (fun member => backtick (List.mem_cons_of_mem part member))
        (fun inside => never (inside.trans (List.suffix_append _ _).isInfix))
      rw [List.flatMap_cons]
      cases part with
      | raw c =>
          have starts : ¬ importText <+: c :: parts.flatMap RegexPart.text ++ tail := fun starts =>
            never (prefix_of_edge edge starts).isInfix
          have ends : c ≠ '`' := fun same => backtick (same ▸ List.mem_cons_self)
          exact (scan_literal ends (raws (.raw c) List.mem_cons_self c rfl) starts).trans (congrArg _ later)
      | escaped c =>
          have starts : ¬ importText <+: c :: parts.flatMap RegexPart.text ++ tail := fun starts =>
            never ((prefix_of_edge edge starts).isInfix.trans (List.suffix_cons '\\' _).isInfix)
          change scanText (.literal '`') false 0 ('\\' :: c :: (parts.flatMap RegexPart.text ++ tail)) =
            '\\' :: c :: (parts.flatMap RegexPart.text ++ scanText (.literal '`') false 0 tail)
          rw [List.cons_append] at starts
          rw [← later, scanText_literal, if_neg (not_starts (by decide)), if_neg Bool.false_ne_true, if_pos rfl, scanText_literal,
            if_neg starts, if_pos rfl]

def base (inside : Bool) : ScanState Char := if inside = true then .literal '`' else .normal

theorem scan_template (opens : Bool) (within : ∀ item ∈ items, Within '`' item) (unmixed : Unmixed items) (tail : List Char) :
    scanText (.literal '`') false 0 (itemsText items ++ ((if opens then ['$', '{'] else ['`']) ++ tail)) =
      itemsText (fixItems items) ++ ((if opens then ['$', '{'] else ['`']) ++ scanText (base opens) false 0 tail) := by
  have backtick : '`' ∈ quotes := by decide
  cases opens with
  | true =>
      change scanText (.literal '`') false 0 (itemsText items ++ '$' :: '{' :: tail) =
        itemsText (fixItems items) ++ '$' :: '{' :: scanText (.literal '`') false 0 tail
      have inert : scanText (.literal '`') false 0 (['$', '{'] ++ tail) = ['$', '{'] ++ scanText (.literal '`') false 0 tail :=
        scan_inert backtick (List.all_iff_forall_prop.mp (by decide)) tail
      rw [scan_items backtick (edge_cons (by decide) _) within unmixed]
      exact congrArg _ inert
  | false =>
      change scanText (.literal '`') false 0 (itemsText items ++ '`' :: tail) =
        itemsText (fixItems items) ++ '`' :: scanText .normal false 0 tail
      rw [scan_items backtick (edge_cons (by decide) _) within unmixed, scan_closes backtick]

theorem fits_within (quote : Quote) {item : Item} (fits : item.FitsString quote) : Within quote.char item := by
  cases item with
  | raw c => exact ⟨fits.1, fits.2.1⟩
  | escape e => exact fits
  | carriage feed => exact trivial

theorem fits_buried (quote : Quote) {item : Item} (fits : item.FitsString quote) (backtick : item ≠ .raw '`') : Within '`' item := by
  cases item with
  | raw c => exact ⟨fun same => backtick (congrArg _ same), fits.2.1⟩
  | escape e => exact fits
  | carriage feed => exact trivial

theorem fits_template {item : Item} (fits : item.FitsTemplate) : Within '`' item := by
  cases item with
  | raw c => exact ⟨fits.1, fits.2.1⟩
  | escape e => exact fits
  | carriage feed => exact trivial

def Follows (e : Element) (rest : List Char) : Prop :=
  (e = .code '/' → rest.head? ≠ some '/' ∧ rest.head? ≠ some '*') ∧ ∀ text, e = .lineComment text .eof → rest = []

theorem quote_mem (quote : Quote) : quote.char ∈ quotes := by
  cases quote <;> decide

theorem quote_plain (quote : Quote) : quote.char ∉ importText ∧ quote.char ≠ '`' ∧ quote.char ≠ '\\' ∧
    quote.char ≠ 'i' := by
  cases quote <;> decide

theorem scan_feed (tail : List Char) :
    scanText .lineComment false 0 ('\n' :: tail) = '\n' :: scanText .normal false 0 tail := by
  rw [scanText_lineComment, if_neg (not_starts (by decide)), if_pos rfl]

theorem scan_outside {e : Element} (wf : e.Wf) (passes : Passes false tail e) (follows : Follows e tail) :
    scanText .normal false 0 (e.text ++ tail) = (fixElement e).text ++ scanText (base (leads false e)) false 0 tail := by
  cases e with
  | code c =>
      have plain : ∀ d ∈ [c], d ∉ quotes := by
        obtain ⟨single, double, backtick⟩ := wf
        simp [quotes, single, double, backtick]
      have apart : ([c] ++ tail.head?.toList).IsChain fun a b => ¬ OpensComment a b := by
        rw [List.cons_append, List.nil_append, List.isChain_cons]
        refine ⟨fun d member opens => ?_, by cases tail <;> simp⟩
        obtain ⟨rfl, opens⟩ := opens
        have free := follows.1 rfl
        cases tail with
        | nil => cases member
        | cons b tail =>
            cases member
            rcases opens with rfl | rfl
            · exact free.1 rfl
            · exact free.2 rfl
      exact scan_code plain apart
  | string quote items =>
      have within (item : Item) (member : item ∈ items) := fits_within quote (wf item member)
      simp only [fixElement, Element.text_string]
      rw [scan_opens (quote_mem quote), scan_items (quote_mem quote) (edge_cons (quote_plain quote).1 _) within passes.1,
        scan_closes (quote_mem quote)]
      rfl
  | template continued items opens =>
      obtain ⟨rfl, unmixed⟩ := passes
      have within (item : Item) (member : item ∈ items) := fits_template (wf.1 item member)
      simp only [fixElement, Element.text_template, if_neg Bool.false_ne_true]
      rw [scan_opens (by decide), scan_template opens within unmixed]
      rfl
  | lineComment text ending =>
      have feed : '\n' ∉ text := fun member => wf '\n' member (by decide)
      simp only [fixElement, Element.text_lineComment]
      rcases passes with rfl | rfl | rfl
      · have edge : ∀ c ∈ ('\n' :: tail).head?, c ∉ importText := edge_cons (by decide) tail
        have scanned := scan_lineComment feed edge
        rw [scan_feed] at scanned
        exact scanned
      · have edge : ∀ c ∈ ('\r' :: '\n' :: tail).head?, c ∉ importText := edge_cons (by decide) _
        have scanned := scan_lineComment feed edge
        rw [scanText_lineComment, if_neg (not_starts (by decide)), if_neg (by decide), scan_feed] at scanned
        exact scanned
      · cases follows.2 text rfl
        exact scan_lineComment feed edge_nil
  | blockComment text =>
      simp only [fixElement, Element.text_blockComment]
      exact scan_blockComment wf tail
  | regex parts =>
      refine scan_code (fun c member => ?_) passes.2
      simp only [Element.text, List.mem_cons, List.mem_append, List.not_mem_nil, or_false] at member
      rcases member with (rfl | inside) | rfl
      · decide
      · exact passes.1 c inside
      · decide

theorem scan_inside {e : Element} (wf : e.Wf) (passes : Passes true tail e) (follows : Follows e tail) :
    scanText (.literal '`') false 0 (e.text ++ tail) = (fixElement e).text ++ scanText (base (leads true e)) false 0 tail := by
  have backtick : '`' ∈ quotes := by decide
  have slash (tail : List Char) : scanText (.literal '`') false 0 ('/' :: tail) = '/' :: scanText (.literal '`') false 0 tail :=
    scan_literal (by decide) (by decide) (not_starts (by decide))
  cases e with
  | code c => exact scan_literal wf.2.2 (passes rfl).1 (passes rfl).2
  | string quote items =>
      obtain ⟨outside, other, plain, first⟩ := quote_plain quote
      have within (item : Item) (member : item ∈ items) : Within '`' item :=
        fits_buried quote (wf item member) fun same => passes.2 rfl (same ▸ member)
      simp only [fixElement, Element.text_string]
      rw [scan_literal other plain (not_starts first), scan_items backtick (edge_cons outside _) within passes.1,
        scan_literal other plain (not_starts first)]
      rfl
  | template continued items opens =>
      obtain ⟨rfl, unmixed⟩ := passes
      have within (item : Item) (member : item ∈ items) := fits_template (wf.1 item member)
      simp only [fixElement, Element.text_template, if_true]
      rw [scan_literal (by decide) (by decide) (not_starts (by decide)), scan_template opens within unmixed]
      rfl
  | lineComment text ending =>
      have inert : ∀ c ∈ ending.text, c ∉ marks := by cases ending <;> exact List.all_iff_forall_prop.mp (by decide)
      have edge : ∀ c ∈ (ending.text ++ tail).head?, c ∉ importText := by
        cases ending with
        | eof =>
            cases follows.2 text rfl
            exact edge_nil
        | _ => exact edge_cons (by decide) _
      simp only [fixElement, Element.text_lineComment]
      rw [slash, slash, scan_buried passes.1 passes.2 edge, scan_inert backtick inert]
      rfl
  | blockComment text =>
      have star (tail : List Char) : scanText (.literal '`') false 0 ('*' :: tail) = '*' :: scanText (.literal '`') false 0 tail :=
        scan_literal (by decide) (by decide) (not_starts (by decide))
      simp only [fixElement, Element.text_blockComment]
      rw [slash, star, scan_buried (passes rfl).1 (passes rfl).2 (edge_cons (by decide) _), star, slash]
      rfl
  | regex parts =>
      simp only [fixElement, Element.text_regex]
      rw [slash, scan_regex wf.1 passes.1 passes.2 (edge_cons (by decide) _), slash]
      rfl

theorem fixText_inert {before : List Char} (inert : ∀ c ∈ before, c ∉ marks) (text : List Char) :
    fixText (before ++ text) = before ++ fixText text := by
  induction before with
  | nil => rfl
  | cons c before ih =>
      have other : c ≠ 'i' := fun same => inert c List.mem_cons_self (same ▸ (by decide))
      rw [List.cons_append, fixText_other (not_starts other), ih fun d member => inert d (List.mem_cons_of_mem c member)]
      rfl

theorem items_text (wf : ∀ e, .escape e ∈ items → e.Wf) (unmixed : Unmixed items) :
    itemsText (fixItems items) = fixText (itemsText items) := by
  induction items using replaced_induction (a := Item.raw 'i') (w := portText.map Item.raw) with
  | nil => rw [fixItems, replaced_nil, itemsText, List.flatMap_nil, fixText, replaced_nil]
  | word items ih =>
      change Unmixed (importItems ++ items) at unmixed
      change itemsText (fixItems (importItems ++ items)) = fixText (itemsText (importItems ++ items))
      have later := ih (fun e member => wf e (List.mem_append_right importItems member)) (unmixed_tail unmixed)
      rw [fixItems_word, import_items, fixText_word, later]
  | other item items other ih =>
      have later := ih fun e member => wf e (List.mem_cons_of_mem item member)
      rw [fixItems_other other]
      cases item with
      | raw c =>
          have starts : ¬ importText <+: itemsText (.raw c :: items) ++ [] := fun starts =>
            other (raws_of_starts edge_nil (by decide) (by decide) starts)
          rw [List.append_nil] at starts
          exact (congrArg (c :: ·) (later unmixed)).trans (fixText_other starts).symm
      | escape e =>
          obtain ⟨apart, unmixed⟩ := unmixed
          obtain ⟨c, more, same, inert⟩ := escape_text (wf e List.mem_cons_self)
          have split (items : List Item) : itemsText (.escape e :: items) = '\\' :: c :: (more ++ itemsText items) := by
            change '\\' :: (e.text ++ itemsText items) = _
            rw [same, List.cons_append]
          rw [same, List.cons_append] at apart
          rw [split, split, fixText_other (not_starts (by decide)), fixText_other apart, fixText_inert inert, later unmixed]
      | carriage feed =>
          have inert : ∀ c ∈ (Item.carriage feed).text, c ∉ marks := by
            cases feed <;> exact List.all_iff_forall_prop.mp (by decide)
          exact (congrArg _ (later unmixed)).trans (fixText_inert inert _).symm

theorem fixText_clean (text : List Char) : ¬ importText <:+: fixText text := by
  refine not_infix_replaced (by decide) (by decide) (fun rest starts => ?_) text
  simp [portEscaped, List.cons_prefix_cons] at starts

theorem fix_same (e : Element) : SameToken e (fixElement e) := by
  have value (items : List Item) : itemsUnits (fixItems items) = itemsUnits items := flatMap_replaced (by decide)
  cases e with
  | string quote items => exact .string quote (value items)
  | template continued items opens => exact .template continued opens (value items)
  | lineComment text ending => exact .lineComment text (fixText text) ending
  | blockComment text => exact .blockComment text (fixText text)
  | code c => exact .code c
  | regex parts => exact .regex parts

theorem port_wf : (Escape.unicode '0' '0' '2' '8').Wf := by
  simp only [Escape.Wf]
  decide

theorem fix_wf {e : Element} (wf : e.Wf) : (fixElement e).Wf := by
  cases e with
  | code c => exact wf
  | string quote items =>
      intro item member
      rcases mem_replaced member with new | old
      · simp only [portItems, List.map_cons, List.map_nil, List.cons_append, List.nil_append, List.mem_cons, List.not_mem_nil,
          or_false] at new
        rcases new with rfl | rfl | rfl | rfl | rfl | rfl
        all_goals first | exact port_wf | (cases quote <;> simp [Item.FitsString, Quote.char])
      · exact wf item old
  | template continued items opens =>
      refine ⟨fun item member => ?_, ?_⟩
      · rcases mem_replaced member with new | old
        · simp only [portItems, List.map_cons, List.map_nil, List.cons_append, List.nil_append, List.mem_cons, List.not_mem_nil,
            or_false] at new
          rcases new with rfl | rfl | rfl | rfl | rfl | rfl
          all_goals first | exact port_wf | simp [Item.FitsTemplate]
        · exact wf.1 item old
      · exact isChain_replaced (by simp [portItems, Plain]) (by simp [portItems, Plain]) wf.2
  | lineComment text ending =>
      intro c member
      rcases mem_replaced member with new | old
      · exact (List.all_iff_forall_prop.mp (by decide) : ∀ d ∈ portEscaped, d ∉ lineTerminators) c new
      · exact wf c old
  | blockComment text => exact isChain_replaced (by decide) (by simp [portEscaped]) wf
  | regex parts => exact wf

theorem fix_clean {inside : Bool} {e : Element} (wf : e.Wf) (passes : Passes inside tail e) :
    ¬ importText <:+: (fixElement e).inner := by
  cases e with
  | code c => exact fun here => by cases List.infix_nil.mp here
  | string quote items =>
      change ¬ importText <:+: itemsText (fixItems items)
      rw [items_text (fun e member => wf (.escape e) member) passes.1]
      exact fixText_clean (itemsText items)
  | template continued items opens =>
      change ¬ importText <:+: itemsText (fixItems items)
      rw [items_text (fun e member => wf.1 (.escape e) member) passes.2]
      exact fixText_clean (itemsText items)
  | lineComment text ending => exact fixText_clean text
  | blockComment text => exact fixText_clean text
  | regex parts => exact fun here => by cases List.infix_nil.mp here

theorem inner_inside (e : Element) : e.inner <:+: e.text := by
  cases e with
  | string quote items => exact ⟨[quote.char], [quote.char], rfl⟩
  | template continued items opens =>
      refine ⟨[if continued then '}' else '`'], if opens then ['$', '{'] else ['`'], ?_⟩
      simp [Element.inner, Element.text]
  | lineComment text ending => exact ⟨['/', '/'], ending.text, rfl⟩
  | blockComment text => exact ⟨['/', '*'], ['*', '/'], rfl⟩
  | code c => exact List.nil_infix
  | regex parts => exact List.nil_infix

theorem element_inside {program : List Element} {e : Element} (member : e ∈ program) : e.text <:+: programText program := by
  obtain ⟨before, after, rfl⟩ := List.append_of_mem member
  refine ⟨programText before, programText after, ?_⟩
  simp [programText]

theorem scan_never (never : ¬ importText <:+: text) (state : ScanState Char) (escaped : Bool) (skip : Nat) :
    scanText state escaped skip text = text.drop skip := by
  induction text generalizing state escaped skip with
  | nil => cases skip <;> cases state <;> rfl
  | cons c text ih =>
      rw [List.infix_cons_iff, not_or] at never
      have copied := ih never.2
      cases skip with
      | succ skip => rw [scanText_skip, copied, List.drop_succ_cons]
      | zero =>
          have second {d : Char} (head : text.head? = some d) : d :: text.drop 1 = text := by
            cases text with
            | nil => cases head
            | cons b text =>
                cases head
                rfl
          rw [List.drop_zero]
          cases state with
          | normal =>
              rw [scanText_normal]
              simp only [copied, List.drop_zero]
              split_ifs with _ _ _ line block
              · rfl
              · rfl
              · rfl
              · rw [second line.2]
              · rw [second block.2]
              · rfl
          | literal quote =>
              rw [scanText_literal, if_neg never.1]
              simp only [copied, List.drop_zero, ite_self]
          | lineComment =>
              rw [scanText_lineComment, if_neg never.1]
              simp only [copied, List.drop_zero, ite_self]
          | blockComment =>
              rw [scanText_blockComment, if_neg never.1]
              simp only [copied, List.drop_zero]
              split_ifs with closes
              · rw [second closes.2]
              · rfl

theorem text_ne_nil (e : Element) : e.text ≠ [] := by
  cases e <;> simp [Element.text]

theorem follows_of_chain {e : Element} {program : List Element} (chain : (e :: program).IsChain Adjacent) :
    Follows e (programText program) := by
  cases program with
  | nil => exact ⟨fun _ => ⟨by nofun, by nofun⟩, fun _ _ => rfl⟩
  | cons second program =>
      have adjacent := (List.isChain_cons_cons.mp chain).1
      have head : (programText (second :: program)).head? = second.text.head? := by
        change (second.text ++ programText program).head? = _
        exact List.head?_append_of_ne_nil second.text (text_ne_nil second)
      rw [Follows, head]
      exact ⟨adjacent.1, fun text same => absurd same (adjacent.2 text)⟩

theorem tame_scanned {inside : Bool} {program : List Element} (tame : Tame inside program) (lexed : Lexed program) :
    ∃ program', List.Forall₂ SameToken program program' ∧ (∀ e ∈ program', e.Wf) ∧
      (∀ e ∈ program', ¬ importText <:+: e.inner) ∧
      scanText (base inside) false 0 (programText program) = programText program' := by
  induction tame with
  | @stop inside program never =>
      refine ⟨program, List.forall₂_same.mpr fun e _ => same_refl e, lexed.wf, fun e member here => ?_, ?_⟩
      · exact never (here.trans ((inner_inside e).trans (element_inside member)))
      · rw [scan_never never, List.drop_zero]
  | @step inside e program passes tame ih =>
      have wf := lexed.wf e List.mem_cons_self
      have follows := follows_of_chain lexed.adjacent
      obtain ⟨program', same, valid, clean, scanned⟩ :=
        ih ⟨fun f member => lexed.wf f (List.mem_cons_of_mem e member), lexed.adjacent.tail⟩
      have here : scanText (base inside) false 0 (e.text ++ programText program) =
          (fixElement e).text ++ scanText (base (leads inside e)) false 0 (programText program) := by
        cases inside with
        | false => exact scan_outside wf passes follows
        | true => exact scan_inside wf passes follows
      refine ⟨fixElement e :: program', .cons (fix_same e) same, ?_, ?_, ?_⟩
      · exact List.forall_mem_cons.mpr ⟨fix_wf wf, valid⟩
      · exact List.forall_mem_cons.mpr ⟨fix_clean wf passes, clean⟩
      · exact here.trans (congrArg _ scanned)

theorem tame_preserved {program : List Element} (lexed : Lexed program) (tame : Tame false program) : Preserves program := by
  obtain ⟨program', same, wf, clean, scanned⟩ := tame_scanned tame lexed
  refine ⟨program', same, ⟨wf, same_chain same lexed.adjacent⟩, clean, ?_⟩
  have normal : ScanState.Quoted .normal := trivial
  have bytes := scan_encode (programText program) normal false 0 (by simp)
  exact bytes.trans (congrArg encode scanned)

end

def advice : List Element := [.string .double (importItems ++ [.raw 'x']), .code ';']

theorem advice_preserved : Preserves advice := by
  refine tame_preserved ⟨?_, ?_⟩ (.step ⟨trivial, nofun⟩ (.stop ?_))
  · simp [advice, importItems, importText, Element.Wf, Item.FitsString, Quote.char]
  · simp [advice, Adjacent]
  · decide

theorem same_code {code : List Char} {program' : List Element} (same : List.Forall₂ SameToken (code.map Element.code) program') :
    program' = code.map Element.code := by
  induction code generalizing program' with
  | nil =>
      cases same
      rfl
  | cons c code ih =>
      rcases same with _ | ⟨⟨⟩, rest⟩
      rw [ih rest]
      rfl

-- A regular expression with a quote begins a string for the scan, and the call after it is code.
def quoteRegex : List Element := .regex [.raw '"'] :: ("; import(x)".toList).map Element.code

theorem quoteRegex_broken : Lexed quoteRegex ∧ ¬ Preserves quoteRegex := by
  refine ⟨⟨?_, ?_⟩, ?_⟩
  · simp [quoteRegex, Element.Wf, RegexPart.text, lineTerminators]
  · simp [quoteRegex, Adjacent]
  · rintro ⟨program', same, _, _, bytes⟩
    rcases same with _ | ⟨⟨⟩, rest⟩
    rw [same_code rest] at bytes
    revert bytes
    decide

end Brainkit.Packages
