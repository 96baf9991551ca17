/-
This file reads the arguments of a command line.
-/

import GedcomGrammar.Text

namespace GedcomGrammar.CommandLine

/-- A run writes the grammar, writes the pattern of a primitive, or checks a value. -/
inductive Mode where
  | dump
  | pattern (label : Text)
  | check (label value : Text)
  deriving DecidableEq

/-- The least severe messages that are logged. -/
inductive LogLevel where
  | error
  | warn
  deriving DecidableEq

def LogLevel.name : LogLevel → Text
  | .error => "ERROR".toList
  | .warn => "WARN".toList

structure Request where
  inputs : List Text := []
  output : Option Text := none
  mode : Mode := .dump
  quiet : Bool := false
  deriving DecidableEq

def Request.logLevel (request : Request) : LogLevel :=
  if request.quiet then .error else .warn

inductive ArgumentError where
  | usage
  | unknownOption (option : Text)
  deriving DecidableEq

/-- What an argument does where no operand is due. -/
inductive Role where
  | output
  | pattern
  | check
  | quiet
  | unknown
  | input
  deriving DecidableEq

/-- Every argument that starts with a dash is an option, known or not. -/
def Role.ofArgument (argument : Text) : Role :=
  if argument = "-o".toList ∨ argument = "--output".toList then .output
  else if argument = "-p".toList ∨ argument = "--pattern".toList then .pattern
  else if argument = "-c".toList ∨ argument = "--check".toList then .check
  else if argument = "-q".toList ∨ argument = "--quiet".toList then .quiet
  else if argument.head? = some '-' then .unknown
  else .input

/-- Arguments are read from left to right, and a later option overrides an earlier one. -/
def Request.extend (request : Request) : List Text → Except ArgumentError Request
  | [] => .ok request
  | argument :: rest =>
      match Role.ofArgument argument with
      | .output =>
          match rest with
          | [] => .ok request
          | path :: rest => { request with output := some path }.extend rest
      | .pattern =>
          match rest with
          | [] => .ok request
          | label :: rest => { request with mode := .pattern label }.extend rest
      | .check =>
          match rest with
          | label :: value :: rest => { request with mode := .check label value }.extend rest
          | _ => .error .usage
      | .quiet => { request with quiet := true }.extend rest
      | .unknown => .error (.unknownOption argument)
      | .input => { request with inputs := request.inputs ++ [argument] }.extend rest

/-- A request names at least one input. -/
def Request.ofArguments (arguments : List Text) : Except ArgumentError Request :=
  match ({} : Request).extend arguments with
  | .error error => .error error
  | .ok request => if request.inputs = [] then .error .usage else .ok request

end GedcomGrammar.CommandLine
