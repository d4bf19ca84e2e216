import ParseView.CommandLine.Run
import ParseView.Token.Render
import ParseView.Tree.Render

/-! The program as it prints: the drawing is written piece by piece, as soon as all that it needs is
loaded. -/

namespace ParseView.CommandLine

/-- How the program writes. The log is no part of the errors. -/
structure Streams (m : Type → Type) where
  output : String → m Unit
  errors : String → m Unit

variable [TextWidth] [Json.FaultPlaces] {m : Type → Type} [Monad m]

def writeDrawing (readFile : ReadFile m) (put : String → m Unit) (glyphs : Glyphs) :
    Command → ExceptT Failure m Unit
  | .tree path style => do
      let text ← readText readFile path
      match Tree.ofDump text with
      | .error fault => throw (.tree path fault (Json.placeOf text fault))
      | .ok tree => ExceptT.lift (tree.render put glyphs style)
  | .tokens path vocabularyPath => do
      let text ← readText readFile path
      match TokenDump.ofText text with
      | .error fault => throw (.tokens path fault (Json.placeOf text fault))
      | .ok dump =>
          match vocabularyPath with
          | none => ExceptT.lift (dump.table.render put glyphs dump.tokens)
          | some vocabularyPath => do
              let text ← readText readFile vocabularyPath
              match Vocabulary.ofTokensFile text with
              | .error fault => throw (.vocabulary vocabularyPath fault)
              | .ok vocabulary =>
                  let table : TokenTable := { dump.table with vocabulary := vocabulary }
                  ExceptT.lift (table.render put glyphs dump.tokens)

def perform (readFile : ReadFile m) (streams : Streams m) (arguments : List String) : m Nat := do
  match Invocation.ofArguments arguments with
  | .error stop =>
      let outcome := Outcome.ofStop stop
      streams.output outcome.output
      streams.errors outcome.errors
      return outcome.exitCode
  | .ok invocation =>
      let glyphs := if invocation.ascii then Glyphs.ascii else Glyphs.unicode
      match ← (writeDrawing readFile streams.output glyphs invocation.command).run with
      | .ok () => return 0
      | .error failure =>
          streams.errors failure.report
          return 1

end ParseView.CommandLine
