import Mathlib.Data.Bool.AllAny
import Brainkit.Library.EcmaNesting
import Brainkit.Library.GoQuote

set_option autoImplicit false
set_option maxRecDepth 4000

-- The script that evaluates a deployment's code in a Compartment of its own. The code is in the script as the text of a
-- string literal, and the Compartment takes the value of the literal between the two ends of an async function. The braces
-- of the source are \x7b and \x7d here.
namespace Brainkit.Runtime.Compartment

open Ecma GoText GoQuote

def jsCompartments : GoString := lit "__kit_compartments"

def evalCode (isPrint : Nat → Bool) (source code : GoString) : GoString :=
  lit "\n\t\tif (typeof globalThis.Compartment !== \"function\") \x7b\n"
    ++ lit "\t\t\tthrow new Error(\"SES not available — Compartment not found after lockdown\");\n"
    ++ lit "\t\t\x7d\n"
    ++ lit "\t\tvar __endowments = globalThis.__kitEndowments(" ++ quote isPrint source ++ lit ");\n"
    ++ lit "\t\tvar __c = new globalThis.Compartment(\x7b __options__: true, globals: __endowments \x7d);\n"
    ++ lit "\t\tglobalThis." ++ jsCompartments ++ lit "[" ++ quote isPrint source ++ lit "] = __c;\n"
    ++ lit "\t\tawait __c.evaluate(" ++ lit "'(async () => \x7b ' + " ++ quote isPrint code ++ lit " + ' \x7d)()'" ++ lit ");\n"
    ++ lit "\t\treturn \"ok\";\n"
    ++ lit "\t"

def wrapped (isPrint : Nat → Bool) (filename code : GoString) : GoString :=
  lit "(async () => \x7b\n"
    ++ lit "\t\treturn await globalThis.__kitRunWithSource(" ++ quote isPrint filename ++ lit ", async () => \x7b\n"
    ++ lit "\t\t\tconst \x7b bus, kit, model, provider, storage, vectorStore, registry, tools, fs, mcp, output, secrets \x7d"
    ++ lit " = globalThis.__kit;\n"
    ++ lit "\t\t\t" ++ code ++ lit "\n"
    ++ lit "\t\t\x7d);\n"
    ++ lit "\t\x7d)()"

def script (isPrint : Nat → Bool) (source code : GoString) : GoString := wrapped isPrint source (evalCode isPrint source code)

def codes (text : String) : List Element := text.toList.map .code

def quoted (isPrint : Nat → Bool) (go : GoString) : List Element := [.string .double (quoteItems isPrint go)]

def phrase (front : String) (delimiter : Quote) (inner back : String) : List Element :=
  codes front ++ .string delimiter (inner.toList.map .raw) :: codes back

def sourced (isPrint : Nat → Bool) (filename : GoString) : List Element :=
  codes "(async () => \x7b\n"
    ++ codes "\t\treturn await globalThis.__kitRunWithSource(" ++ quoted isPrint filename ++ codes ", async () => \x7b\n"
    ++ codes "\t\t\tconst \x7b bus, kit, model, provider, storage, vectorStore, registry, tools, fs, mcp, output, secrets \x7d"
    ++ codes " = globalThis.__kit;\n"
    ++ codes "\t\t\t"

def checked : List Element :=
  phrase "\n\t\tif (typeof globalThis.Compartment !== " .double "function" ") \x7b\n"
    ++ phrase "\t\t\tthrow new Error(" .double "SES not available — Compartment not found after lockdown" ");\n"
    ++ codes "\t\t\x7d\n"

def endowed (isPrint : Nat → Bool) (source : GoString) : List Element :=
  codes "\t\tvar __endowments = globalThis.__kitEndowments(" ++ quoted isPrint source ++ codes ");\n"
    ++ codes "\t\tvar __c = new globalThis.Compartment(\x7b __options__: true, globals: __endowments \x7d);\n"
    ++ codes "\t\tglobalThis." ++ codes "__kit_compartments" ++ codes "[" ++ quoted isPrint source ++ codes "] = __c;\n"

def before (isPrint : Nat → Bool) (source : GoString) : List Element :=
  sourced isPrint source ++ checked ++ endowed isPrint source ++ codes "\t\tawait __c.evaluate("

def argument (isPrint : Nat → Bool) (code : GoString) : List Element :=
  phrase "" .single "(async () => \x7b " " + " ++ quoted isPrint code ++ phrase " + " .single " \x7d)()" ""

def after : List Element :=
  codes ");\n" ++ phrase "\t\treturn " .double "ok" ";\n" ++ codes "\t" ++ codes "\n" ++ codes "\t\t\x7d);\n" ++ codes "\t\x7d)()"

def stringUnits : Element → List Nat
  | .string _ items => itemsUnits items
  | _ => []

def evaluated (isPrint : Nat → Bool) (code : GoString) : List Nat := (argument isPrint code).flatMap stringUnits

structure Body (program : List Element) : Prop where
  lexed : Lexed program
  nested : Nested program

def function (program : List Element) : List Element := codes " " ++ program ++ codes " \x7d)()"

end Brainkit.Runtime.Compartment
