import Mathlib.Data.List.Chain
import Brainkit.Library.Ecma

set_option autoImplicit false

-- The brackets of a program, and the body of a function up to the brace that ends it.
namespace Ecma

-- An element that is read by itself, whatever follows.
def Firm (e : Element) : Prop := e ≠ .code '/' ∧ ∀ text, e ≠ .lineComment text .eof

theorem firm_adjacent {e : Element} (firm : Firm e) (f : Element) : Adjacent e f :=
  ⟨fun same => absurd same firm.1, firm.2⟩

theorem lexed_firm {program : List Element} (firm : ∀ e ∈ program, e.Wf ∧ Firm e) : Lexed program := by
  refine ⟨fun e member => (firm e member).1, ?_⟩
  induction program with
  | nil => exact .nil
  | cons first rest ih =>
      have later := ih fun e member => firm e (List.mem_cons_of_mem first member)
      exact List.isChain_cons.mpr ⟨fun second _ => firm_adjacent (firm first List.mem_cons_self).2 second, later⟩

inductive Bracket where
  | round
  | square
  | curly
  | substitution
deriving DecidableEq

abbrev Depth := List Bracket

def close (bracket : Bracket) : Depth → Option Depth
  | [] => none
  | innermost :: depth => if innermost = bracket then some depth else none

def nest (depth : Depth) : Element → Option Depth
  | .code '(' => some (.round :: depth)
  | .code '[' => some (.square :: depth)
  | .code '{' => some (.curly :: depth)
  | .code ')' => close .round depth
  | .code ']' => close .square depth
  | .code '}' => close .curly depth
  | .template continued _ opens =>
      (if continued then close .substitution depth else some depth).map fun depth =>
        if opens then .substitution :: depth else depth
  | _ => some depth

def nestAll : Depth → List Element → Option Depth
  | depth, [] => some depth
  | depth, e :: rest => (nest depth e).bind fun inner => nestAll inner rest

def Nested (program : List Element) : Prop := nestAll [] program = some []

instance (program : List Element) : Decidable (Nested program) := inferInstanceAs (Decidable (_ = _))

end Ecma
