/-
This file defines what a command line does, as a script.
-/

import GedcomGrammar.CommandLine.Arguments
import GedcomGrammar.CommandLine.Script
import GedcomGrammar.Validation

namespace GedcomGrammar.CommandLine

/-- The lines that explain the command line. -/
def usage (program : Text) : Text :=
  "Usage: ".toList ++ program ++ " <grammar-file>... [options]\n\nOptions:\n".toList ++
  "  -o, --output <file>             Write the regenerated grammar to a file (default: stdout)\n".toList ++
  "  -p, --pattern <PRIMITIVE>       Print the anchored match pattern of a primitive\n".toList ++
  "  -c, --check <PRIMITIVE> <VALUE> Validate a value against a primitive\n".toList ++
  "  -q, --quiet                     Only log errors (RUST_LOG still applies)\n".toList

/-- A failed run prints one line of errors and nothing else. -/
def failure (code : Nat) (message : Text) : Exit :=
  { code, errors := message ++ ['\n'] }

/-- The files are read in order, each when the ones before it are part of the schema. -/
def loadFiles (schema : Schema) : List Text → Script (Except ParseError Schema)
  | [] => .done (.ok schema)
  | path :: rest =>
      .read path fun
        | .error error => .done (.error (.unreadable path error))
        | .ok text =>
            match schema.addText text with
            | (_, some error) => .done (.error error)
            | (extended, none) => loadFiles extended rest

/-- The text of the schema goes to the output file, if there is one. -/
def dump (schema : Schema) (output : Option Text) : Script Exit :=
  let text := schema.text ++ ['\n']
  match output with
  | none => .done { code := 0, output := text }
  | some path =>
      .write path text fun
        | none => .done { code := 0 }
        | some error =>
            .done (failure 1
              ("Failed to write ".toList ++ path ++ ": ".toList ++ error.message))

def unknownPrimitive (label : Text) : Exit :=
  failure 1 ("Unknown primitive: ".toList ++ label)

def printPattern (schema : Schema) (label : Text) : Exit :=
  match schema.primitive? label with
  | none => unknownPrimitive label
  | some primitive =>
      match schema.pattern primitive none with
      | .error error => failure 1 ("Pattern error: ".toList ++ error.message)
      | .ok pattern => { code := 0, output := pattern.anchoredText ++ ['\n'] }

/-- A value that is not allowed gives a code of its own. -/
def check (compiler : Regex.Compiler) (schema : Schema) (label value : Text) : Exit :=
  match schema.primitive? label with
  | none => unknownPrimitive label
  | some primitive =>
      match schema.validate compiler primitive value with
      | .error error => failure 2 ("invalid: ".toList ++ error.message)
      | .ok none => { code := 0, output := "valid\n".toList }
      | .ok (some definition) =>
          { code := 0, output := "valid (".toList ++ definition ++ ")\n".toList }

/-- What a loaded schema is used for. -/
def serve (compiler : Regex.Compiler) (schema : Schema) (request : Request) : Script Exit :=
  match request.mode with
  | .dump => dump schema request.output
  | .pattern label => .done (printPattern schema label)
  | .check label value => .done (check compiler schema label value)

def Request.script (request : Request) (compiler : Regex.Compiler) : Script Exit :=
  (loadFiles {} request.inputs).bind fun
    | .error error => .done (failure 1 ("Parse error: ".toList ++ error.message))
    | .ok schema => serve compiler schema request

/-- The whole run of a program under a name, with the arguments after the name. -/
def script (compiler : Regex.Compiler) (program : Text) (arguments : List Text) : Script Exit :=
  match Request.ofArguments arguments with
  | .error .usage => .done { code := 1, errors := usage program }
  | .error (.unknownOption option) =>
      .done (failure 1 ("Unknown option: ".toList ++ option))
  | .ok request => request.script compiler

end GedcomGrammar.CommandLine
