import NativeBuild.Path

namespace NativeBuild

inductive Command
  | channels (input : Option Path)
  | artifacts (input : Option Path) (binary purpose : String)
  | moduleMaps (input : Option Path) (binary : Option String) (json : Bool)
  | generate (input : Option Path) (binary : String) (output : Option Path)
  deriving DecidableEq, Inhabited

inductive Invocation
  | run (command : Command)
  | version
  | help
  deriving DecidableEq, Inhabited

namespace Arguments

inductive Subcommand
  | channels
  | artifacts
  | moduleMaps
  | generate
  deriving DecidableEq, Inhabited

namespace Subcommand

def label : Subcommand → String
  | .channels => "channels"
  | .artifacts => "artifacts"
  | .moduleMaps => "module-maps"
  | .generate => "generate"

def all : List Subcommand := [.channels, .artifacts, .moduleMaps, .generate]

def ofLabel? (text : String) : Option Subcommand :=
  all.find? (·.label == text)

def valued : Subcommand → List String
  | .channels => []
  | .artifacts => ["binary", "purpose"]
  | .moduleMaps => ["binary"]
  | .generate => ["binary", "output"]

def flags : Subcommand → List String
  | .moduleMaps => ["json"]
  | _ => []

end Subcommand

structure Given where
  input : Option String
  values : List (String × String)
  flags : List String
  deriving Inhabited

def shortName? (s : Subcommand) (letter : Char) : Option String :=
  if s = .generate && letter == 'o' then some "output" else none

def isPathOption (name : String) : Bool := name == "output"

def Given.setValue (g : Given) (name value : String) : Option Given :=
  if (g.values.lookup name).isSome || (isPathOption name && value = "") then none
  else some { g with values := g.values ++ [(name, value)] }

def Given.setFlag (g : Given) (name : String) : Option Given :=
  if name ∈ g.flags then none else some { g with flags := name :: g.flags }

def Given.setInput (g : Given) (value : String) : Option Given :=
  if g.input.isSome || value = "" then none else some { g with input := some value }

def isOption (argument : String) : Bool :=
  match argument.toList with
  | '-' :: _ :: _ => true
  | _ => false

def divide (cs : List Char) : String × Option String :=
  let name := cs.takeWhile (· != '=')
  match cs.dropWhile (· != '=') with
  | [] => (String.ofList name, none)
  | _ :: value => (String.ofList name, some (String.ofList value))

def attached? : List Char → Option String
  | [] => none
  -- An equals sign in front of the value does not count.
  | '=' :: value => some (String.ofList value)
  | value => some (String.ofList value)

inductive Parsed
  | given (g : Given)
  | help

def read (s : Subcommand) (g : Given) : List String → Option Parsed
  | [] => some (.given g)
  | "--" :: rest => do return Parsed.given (← rest.foldlM Given.setInput g)
  | argument :: rest =>
    match argument.toList with
    | '-' :: '-' :: long =>
      let (name, value?) := divide long
      if name ∈ s.valued then
        match value?, rest with
        | some value, rest => do read s (← g.setValue name value) rest
        | none, value :: rest =>
          if isOption value then none else do read s (← g.setValue name value) rest
        | none, [] => none
      else if name ∈ s.flags && value?.isNone then do read s (← g.setFlag name) rest
      else if name = "help" && value?.isNone then some .help
      else none
    | '-' :: 'h' :: _ => some .help
    | '-' :: letter :: more =>
      match shortName? s letter, attached? more, rest with
      | some name, some value, rest => do read s (← g.setValue name value) rest
      | some name, none, value :: rest =>
        if isOption value then none else do read s (← g.setValue name value) rest
      | _, _, _ => none
    | _ => do read s (← g.setInput argument) rest

def commandOf (s : Subcommand) (g : Given) : Command :=
  let input := g.input.map Path.mk
  let binary? := g.values.lookup "binary"
  match s with
  | .channels => .channels input
  | .artifacts =>
    .artifacts input (binary?.getD "debug") ((g.values.lookup "purpose").getD "compile")
  | .moduleMaps => .moduleMaps input binary? ("json" ∈ g.flags)
  | .generate =>
    .generate input (binary?.getD "debug") ((g.values.lookup "output").map Path.mk)

def isHelpTopic : List String → Bool
  | [] => true
  | [topic] => topic = "help" || (Subcommand.ofLabel? topic).isSome
  | _ => false

def parse? : List String → Option Invocation
  | [] => none
  | first :: rest =>
    match first.toList with
    | '-' :: 'V' :: _ => some .version
    | '-' :: 'h' :: _ => some .help
    | _ =>
      if first = "--version" then some .version
      else if first = "--help" then some .help
      else if first = "help" then if isHelpTopic rest then some .help else none
      else do
        let s ← Subcommand.ofLabel? first
        match ← read s default rest with
        | .given g => return .run (commandOf s g)
        | .help => return .help

end Arguments

end NativeBuild
