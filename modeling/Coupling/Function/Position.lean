import Coupling.Function.Signature
import Coupling.Settings.Basic

/-!
# Coupling by position

Callers that pass arguments by position have to know the order of the parameters. Reported are long
parameter lists, flags, unwieldy names, required parameters after optional ones, and calls with many
positional arguments.
-/

namespace Coupling.Position

open Syntax

/-- Above this many positional parameters a finding is critical. -/
def criticalCount : Nat := 7

def countAdvice (count : Nat) : String :=
  if 6 < count then
    "Consider using a data class, named tuple, or configuration object to group related parameters"
  else if 4 < count then
    "Use keyword arguments or consider parameter objects for better maintainability"
  else "Consider using keyword arguments or grouping related parameters"

/-- Too many positional parameters, a receiver not counted. -/
def checkCount (l : Limits) (path : String) (s : Signature) (isMethod : Bool)
    (positional : List Parameter) : List Finding :=
  let count := positional.length
  if count ≤ l.maxPositionalParams then []
  else
    [.new .position (if criticalCount < count then .critical else .high) path s.place
      s!"Function '{s.name}' has {count} positional parameters (>{l.maxPositionalParams})"
      (countAdvice count)
      [("function_name", .str s.name), ("parameter_count", .nat count),
       ("parameter_names", .arr (positional.map fun p => .str p.name)),
       ("is_method", .bool isMethod), ("has_varargs", .bool s.hasVarargs),
       ("has_kwargs", .bool s.hasKwargs)]]

def checkFlags (path : String) (s : Signature) (positional : List Parameter) : List Finding :=
  (positional.filter (·.boolDefault)).map fun p =>
    .new .position .medium path p.place
      s!"Boolean parameter '{p.name}' in function '{s.name}' creates positional coupling"
      "Consider using keyword-only arguments or enum/string constants"
      [("function_name", .str s.name), ("parameter_name", .str p.name),
       ("issue_type", .str "boolean_flag")]

def checkNames (l : Limits) (path : String) (s : Signature) : List Finding :=
  (s.parameters.filter fun p => l.maxParamNameLength < p.name.length).map fun p =>
    .new .position .low path p.place
      s!"Parameter '{p.name}' has excessive name length ({p.name.length} chars)"
      "Use shorter, more concise parameter names"
      [("function_name", .str s.name), ("parameter_name", .str p.name),
       ("name_length", .nat p.name.length), ("issue_type", .str "long_name")]

/-- Required parameters after the first optional one. -/
def checkOrder (path : String) (s : Signature) (positional : List Parameter) : List Finding :=
  let later := positional.dropWhile (!·.hasDefault)
  (later.filter (!·.hasDefault)).map fun p =>
    .new .position .medium path p.place
      s!"Required parameter '{p.name}' follows optional parameters in '{s.name}'"
      "Place required parameters before optional ones"
      [("function_name", .str s.name), ("parameter_name", .str p.name),
       ("issue_type", .str "parameter_ordering")]

/-- The positional parameters that callers see: a receiver is dropped. -/
def visible (s : Signature) (inClass : Bool) : List Parameter :=
  s.positional.drop (if s.isMethod inClass then 1 else 0)

def checkSignature (l : Limits) (path : String) (s : Signature) (inClass : Bool) : List Finding :=
  let positional := visible s inClass
  checkCount l path s (s.isMethod inClass) positional ++ checkFlags path s positional ++
    checkNames l path s ++ checkOrder path s positional

/-- The name by which a call reaches its function. -/
def calleeName (text : SourceText) (call : Tree) : String :=
  let found := (call.child? .function).bind fun f =>
    match f.kind with
    | .identifier => some (text.text f)
    | .attribute => (f.child? .attribute).map text.text
    | _ => none
  found.getD "unknown"

/-- Arguments that a list passes by position. -/
def positionalArguments (arguments : Tree) : Nat :=
  arguments.namedChildren.countP fun a =>
    a.kind != .keywordArgument && a.kind != .dictionarySplat && a.kind != .comment

def checkCall (l : Limits) (source : Source) (call : Tree) : List Finding :=
  match call.child? .arguments with
  | none => []
  | some arguments =>
    let count := positionalArguments arguments
    if arguments.kind ≠ .argumentList ∨ count ≤ l.maxCallArgs then []
    else
      [.new .position .medium source.path (source.text.placeOf call)
        s!"Function call with {count} positional arguments (>{l.maxCallArgs})"
        "Use keyword arguments for better readability and maintainability"
        [("argument_count", .nat count), ("function_name", .str (calleeName source.text call)),
         ("issue_type", .str "excessive_call_args")]]

end Coupling.Position
