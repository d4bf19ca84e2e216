import ParseView.CommandLine.Arguments
import ParseView.LoadError
import ParseView.Token.Dump
import ParseView.Tree.Dump

/-! Running the command line. Nothing is printed before everything is loaded, so standard output
holds the whole drawing or nothing. -/

namespace ParseView.CommandLine

inductive ReadFault where
  | missing
  | directory
  | notText
  | other (description : String)
deriving DecidableEq, Repr

namespace ReadFault

def message : ReadFault → String
  | missing => "No such file or directory (os error 2)"
  | directory => "Is a directory (os error 21)"
  | notText => "stream did not contain valid UTF-8"
  | other description => description

end ReadFault

/-- The stage of loading that failed, with the file it worked on. -/
inductive Failure where
  | reading (path : String) (fault : ReadFault)
  | tree (path : String) (fault : Json.Fault) (place : Option Json.Place)
  | tokens (path : String) (fault : Json.Fault) (place : Option Json.Place)
  | vocabulary (path : String) (fault : VocabularyFault)

namespace Failure

def context : Failure → String
  | reading path _ => "failed to read `" ++ path ++ "`"
  | tree path _ _ => "failed to load tree from `" ++ path ++ "`"
  | tokens path _ _ => "failed to load tokens from `" ++ path ++ "`"
  | vocabulary path _ => "failed to load vocabulary from `" ++ path ++ "`"

def causes : Failure → List String
  | reading _ fault => [fault.message]
  | tree _ fault place => [(LoadError.dump fault).message place, fault.messageAt place]
  | tokens _ fault place => [(LoadError.dump fault).message place, fault.messageAt place]
  | vocabulary _ fault => [(LoadError.vocabulary fault).message none]

/-- Causes are numbered if there is more than one. -/
def causeLines (causes : List String) : List String :=
  match causes with
  | [only] => ["    " ++ only ++ "\n"]
  | _ => causes.zipIdx.map fun (cause, index) => "    " ++ toString index ++ ": " ++ cause ++ "\n"

def report (failure : Failure) : String :=
  "Error: " ++ failure.context ++ "\n\nCaused by:\n" ++ String.join (causeLines failure.causes)

end Failure

structure Outcome where
  exitCode : Nat
  output : String := ""
  errors : String := ""
deriving DecidableEq, Repr

def versionText : String := "parsedump 0.1.0\n"

def usageText : String :=
  "Usage: parsedump [OPTIONS] <COMMAND>\n\n" ++
  "Commands:\n" ++
  "  tree    Render a JSON tree dump\n" ++
  "  tokens  Render a JSON token dump as a table\n" ++
  "  help    Print this message or the help of the given subcommand(s)\n\n" ++
  "Options:\n" ++
  "      --ascii       Draw with ASCII characters instead of box-drawing ones\n" ++
  "  -v, --verbose...  Log to stderr; repeat for more detail\n" ++
  "  -h, --help        Print help\n" ++
  "  -V, --version     Print version\n"

def helpText : String :=
  "Pretty-prints parse trees and token streams dumped by a parser\n\n" ++ usageText

namespace Outcome

def ofStop : Stop → Outcome
  | .version => { exitCode := 0, output := versionText }
  | .help => { exitCode := 0, output := helpText }
  | .usage fault => { exitCode := 2, errors := "error: " ++ fault.message ++ "\n\n" ++ usageText }

def ofDrawing : Except Failure String → Outcome
  | .ok drawing => { exitCode := 0, output := drawing }
  | .error failure => { exitCode := 1, errors := failure.report }

end Outcome

variable {m : Type → Type} [Monad m]

abbrev ReadFile (m : Type → Type) := String → m (Except ReadFault ByteArray)

def readText (readFile : ReadFile m) (path : String) : ExceptT Failure m String := do
  match ← (readFile path : m _) with
  | .error fault => throw (.reading path fault)
  | .ok bytes =>
      match String.fromUTF8? bytes with
      | some text => return text
      | none => throw (.reading path .notText)

variable [TextWidth] [Json.FaultPlaces]

/-- Loads what the command names and draws it. The dump is read and decoded before the
vocabulary file is read. -/
def draw (readFile : ReadFile m) (glyphs : Glyphs) : Command → ExceptT Failure m String
  | .tree path style => do
      let text ← readText readFile path
      match Tree.ofDump text with
      | .error fault => throw (.tree path fault (Json.placeOf text fault))
      | .ok tree => return tree.draw glyphs style
  | .tokens path vocabularyPath => do
      let text ← readText readFile path
      match TokenDump.ofText text with
      | .error fault => throw (.tokens path fault (Json.placeOf text fault))
      | .ok dump =>
          match vocabularyPath with
          | none => return dump.draw glyphs
          | some vocabularyPath => do
              let text ← readText readFile vocabularyPath
              match Vocabulary.ofTokensFile text with
              | .error fault => throw (.vocabulary vocabularyPath fault)
              | .ok vocabulary => return { dump with vocabulary := vocabulary }.draw glyphs

/-- Runs the program on its arguments. -/
def run (readFile : ReadFile m) (arguments : List String) : m Outcome := do
  match Invocation.ofArguments arguments with
  | .error stop => return .ofStop stop
  | .ok invocation =>
      let glyphs := if invocation.ascii then Glyphs.ascii else Glyphs.unicode
      return .ofDrawing (← (draw readFile glyphs invocation.command).run)

end ParseView.CommandLine
