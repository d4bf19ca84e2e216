import ParseView.Tree.Layout

/-! The arguments of the command line: `tree PATH` and `tokens PATH`, with options before and
after the path. `--` ends the options. -/

namespace ParseView.CommandLine

inductive Command where
  | tree (path : String) (style : TreeStyle)
  | tokens (path : String) (vocabulary : Option String)
deriving DecidableEq, Repr

structure Invocation where
  ascii : Bool
  verbosity : Nat
  command : Command
deriving DecidableEq, Repr

inductive UsageFault where
  | missingCommand
  | unknownCommand (name : String)
  | unknownOption (name : String)
  | repeatedOption (name : String)
  | valueForFlag (name : String)
  | missingValue (name : String)
  | badValue (name : String) (value : String)
  | missingPath
  | surplusArgument (argument : String)
deriving DecidableEq, Repr

/-- Why the arguments do not lead to a drawing. -/
inductive Stop where
  | usage (fault : UsageFault)
  | version
  | help
deriving DecidableEq, Repr

namespace UsageFault

def message : UsageFault → String
  | missingCommand => "a command is required"
  | unknownCommand name => "unrecognized command '" ++ name ++ "'"
  | unknownOption name => "unexpected argument '" ++ name ++ "'"
  | repeatedOption name => "'" ++ name ++ "' cannot be used multiple times"
  | valueForFlag name => "'" ++ name ++ "' takes no value"
  | missingValue name => "a value is required for '" ++ name ++ "'"
  | badValue name value => "invalid value '" ++ value ++ "' for '" ++ name ++ "'"
  | missingPath => "a path is required"
  | surplusArgument argument => "unexpected argument '" ++ argument ++ "'"

end UsageFault

inductive Argument where
  | separator
  | long (name : String) (value : Option String)
  | short (letters : List Char)
  | plain (value : String)
deriving DecidableEq, Repr

namespace Argument

def splitValue : List Char → List Char × Option (List Char)
  | [] => ([], none)
  | first :: rest =>
      if first = '=' then ([], some rest)
      else
        let (name, value) := splitValue rest
        (first :: name, value)

def ofString (argument : String) : Argument :=
  match argument.toList with
  | ['-', '-'] => separator
  | '-' :: '-' :: rest =>
      let (name, value) := splitValue rest
      long (String.ofList name) (value.map String.ofList)
  | '-' :: first :: rest => short (first :: rest)
  | _ => plain argument

end Argument

/-- The options that may stand before or after the name of the command. -/
structure Shared where
  ascii : Bool := false
  verbosity : Nat := 0
deriving DecidableEq, Repr

def usage {α : Type} (fault : UsageFault) : Except Stop α :=
  .error (.usage fault)

namespace Shared

def long? (shared : Shared) (name : String) (value : Option String) :
    Except Stop (Option Shared) :=
  if name = "ascii" ∨ name = "verbose" ∨ name = "help" then
    if value.isSome then usage (.valueForFlag name)
    else if name = "help" then .error .help
    else if name = "verbose" then .ok (some { shared with verbosity := shared.verbosity + 1 })
    else if shared.ascii then usage (.repeatedOption name)
    else .ok (some { shared with ascii := true })
  else
    .ok none

/-- Reads single-letter options from left to right. The version is asked for only before the
name of the command. -/
def letters (versionAllowed : Bool) (shared : Shared) : List Char → Except Stop Shared
  | [] => .ok shared
  | letter :: rest =>
      if letter = 'v' then
        letters versionAllowed { shared with verbosity := shared.verbosity + 1 } rest
      else if letter = 'h' then .error .help
      else if letter = 'V' ∧ versionAllowed then .error .version
      else usage (.unknownOption (String.singleton letter))

end Shared

def policy? (value : String) : Option InlinePolicy :=
  if value = "always" then some .always
  else if value = "direct-line" then some .directLine
  else if value = "never" then some .never
  else none

/-- What the arguments after the name of a command have said so far. -/
structure Gathered where
  shared : Shared := {}
  path : Option String := none
  inline : Option InlinePolicy := none
  positions : Bool := false
  vocabulary : Option String := none
deriving DecidableEq, Repr

inductive CommandName where
  | tree
  | tokens
deriving DecidableEq, Repr

namespace Gathered

def addPath (gathered : Gathered) (argument : String) : Except Stop Gathered :=
  if gathered.path.isSome then usage (.surplusArgument argument)
  else .ok { gathered with path := some argument }

def flag (command : CommandName) (gathered : Gathered) (name : String) (value : Option String) :
    Except Stop Gathered := do
  match ← gathered.shared.long? name value with
  | some shared => return { gathered with shared := shared }
  | none =>
      if command = .tree ∧ name = "positions" then
        if value.isSome then usage (.valueForFlag name)
        else if gathered.positions then usage (.repeatedOption name)
        else return { gathered with positions := true }
      else
        usage (.unknownOption name)

def takesValue (command : CommandName) (name : String) : Bool :=
  match command with
  | .tree => name == "inline"
  | .tokens => name == "vocabulary"

def valued (command : CommandName) (gathered : Gathered) (name value : String) :
    Except Stop Gathered :=
  match command with
  | .tree =>
      if gathered.inline.isSome then usage (.repeatedOption name)
      else
        match policy? value with
        | some policy => .ok { gathered with inline := some policy }
        | none => usage (.badValue name value)
  | .tokens =>
      if gathered.vocabulary.isSome then usage (.repeatedOption name)
      else .ok { gathered with vocabulary := some value }

def read (command : CommandName) (gathered : Gathered) :
    (optionsEnded : Bool) → List String → Except Stop Gathered
  | _, [] => .ok gathered
  | true, argument :: rest => do read command (← gathered.addPath argument) true rest
  | false, argument :: rest =>
      match Argument.ofString argument with
      | .separator => read command gathered true rest
      | .plain value => do read command (← gathered.addPath value) false rest
      | .short letters => do
          let shared ← gathered.shared.letters false letters
          read command { gathered with shared := shared } false rest
      | .long name value =>
          if takesValue command name then
            match value, rest with
            | some value, rest => do read command (← gathered.valued command name value) false rest
            | none, [] => usage (.missingValue name)
            | none, next :: rest =>
                match Argument.ofString next with
                | .plain value => do
                    read command (← gathered.valued command name value) false rest
                | _ => usage (.missingValue name)
          else do
            read command (← gathered.flag command name value) false rest

def command (name : CommandName) (gathered : Gathered) : Except Stop Command :=
  match gathered.path with
  | none => usage .missingPath
  | some path =>
      match name with
      | .tree => .ok (.tree path ⟨gathered.inline.getD .directLine, gathered.positions⟩)
      | .tokens => .ok (.tokens path gathered.vocabulary)

end Gathered

def commandName? (name : String) : Option CommandName :=
  if name = "tree" then some .tree
  else if name = "tokens" then some .tokens
  else none

namespace Invocation

/-- An option that is given after the name of the command makes up for one before it; the count of
the log option after the name replaces that before it. -/
def ofCommand (shared : Shared) (name : CommandName) (arguments : List String) :
    Except Stop Invocation := do
  let gathered ← Gathered.read name {} false arguments
  let command ← gathered.command name
  return { ascii := shared.ascii || gathered.shared.ascii
           verbosity :=
             if gathered.shared.verbosity = 0 then shared.verbosity else gathered.shared.verbosity
           command := command }

def help (arguments : List String) : Stop :=
  match arguments with
  | [] => .help
  | [topic] =>
      if topic = "help" ∨ (commandName? topic).isSome then .help
      else .usage (.unknownCommand topic)
  | _ :: next :: _ => .usage (.unknownCommand next)

/-- Reads the arguments up to the name of the command, and then those of the command. The first
argument that stops the reading decides how. -/
def read (shared : Shared) : List String → Except Stop Invocation
  | [] => usage .missingCommand
  | argument :: rest =>
      match Argument.ofString argument with
      | .separator =>
          match rest with
          | [] => usage .missingCommand
          | next :: _ => usage (.surplusArgument next)
      | .plain name =>
          match commandName? name with
          | some command => ofCommand shared command rest
          | none => if name = "help" then .error (help rest) else usage (.unknownCommand name)
      | .short letters => do read (← shared.letters true letters) rest
      | .long name value => do
          if name = "version" then
            if value.isSome then usage (.valueForFlag name) else .error .version
          else
            match ← shared.long? name value with
            | some shared => read shared rest
            | none => usage (.unknownOption name)

def ofArguments (arguments : List String) : Except Stop Invocation :=
  read {} arguments

end Invocation

end ParseView.CommandLine
