import ParseView.Json.Compact
import ParseView.Json.Reader.Record
import ParseView.Token.Basic
import ParseView.Token.Table

/-! Token dumps: a token stream as a JSON text, with the tables that label it. They are read in
one pass, so the first fault met is the one that counts. -/

namespace ParseView

open Json

namespace Vocabulary

def namesToJson (names : List (Option String)) : Json :=
  .list (names.map (Json.ofOption Json.text))

def toJson (vocabulary : Vocabulary) : Json :=
  .object [("symbolic", namesToJson vocabulary.symbolic),
    ("literal", namesToJson vocabulary.literal)]

def recordType : RecordType := ⟨"VocabularyTable", 2⟩

def readNames : Reader (List (Option String)) :=
  expectList (expectOption expectText)

structure Fields where
  symbolic : Option (List (Option String)) := none
  literal : Option (List (Option String)) := none

def readMember (key : String) (fields : Fields) : Reader Fields := do
  match key with
  | "symbolic" => return { fields with symbolic := ← RecordType.once key fields.symbolic readNames }
  | "literal" => return { fields with literal := ← RecordType.once key fields.literal readNames }
  | _ =>
      RecordType.ignore
      return fields

def ofFields (fields : Fields) : Except Fault Vocabulary :=
  .ok ⟨fields.symbolic.getD [], fields.literal.getD []⟩

def readInOrder : Reader Vocabulary := do
  let symbolic ← RecordType.field? 0 readNames
  let literal ← RecordType.field? 1 readNames
  ofFields ⟨symbolic, literal⟩

def read : Reader Vocabulary :=
  recordType.read readInOrder {} readMember ofFields

end Vocabulary

namespace Channels

def toJson (channels : Channels) : Json :=
  .object [("names", .list (channels.names.map Json.text)),
    ("map", .list (channels.columns.map (Json.ofOption Json.ofNat)))]

def recordType : RecordType := ⟨"Raw", 2⟩

def readNames : Reader (List String) := expectList expectText

def readColumns : Reader (List (Option Nat)) := expectList (expectOption expectIndex)

structure Fields where
  names : Option (List String) := none
  columns : Option (List (Option Nat)) := none

def readMember (key : String) (fields : Fields) : Reader Fields := do
  match key with
  | "names" => return { fields with names := ← RecordType.once key fields.names readNames }
  | "map" => return { fields with columns := ← RecordType.once key fields.columns readColumns }
  | _ =>
      RecordType.ignore
      return fields

def ofFields (fields : Fields) : Except Fault (List String × List (Option Nat)) := do
  let names ← RecordType.require "names" fields.names
  let columns ← RecordType.require "map" fields.columns
  return (names, columns)

def readInOrder : Reader (List String × List (Option Nat)) := do
  let names ← recordType.field 0 readNames
  let columns ← recordType.field 1 readColumns
  return (names, columns)

/-- The columns are checked against the names once both are read and the record is closed. -/
def read : Reader Channels := do
  let (names, columns) ← recordType.read readInOrder {} readMember ofFields
  ((ofNames names columns).mapError Fault.channel : Except Fault Channels)

end Channels

namespace Token

def toJson (token : Token) : Json :=
  .object [("kind", .ofWord token.kind), ("channel", .ofWord token.channel),
    ("line", .ofWord token.line), ("column", .ofWord token.column), ("text", .text token.text)]

def recordType : RecordType := ⟨"Token", 5⟩

structure Fields where
  kind : Option UInt32 := none
  channel : Option UInt32 := none
  line : Option UInt32 := none
  column : Option UInt32 := none
  text : Option String := none

def readMember (key : String) (fields : Fields) : Reader Fields := do
  match key with
  | "kind" => return { fields with kind := ← RecordType.once key fields.kind expectWord }
  | "channel" => return { fields with channel := ← RecordType.once key fields.channel expectWord }
  | "line" => return { fields with line := ← RecordType.once key fields.line expectWord }
  | "column" => return { fields with column := ← RecordType.once key fields.column expectWord }
  | "text" => return { fields with text := ← RecordType.once key fields.text expectText }
  | _ =>
      RecordType.ignore
      return fields

def ofFields (fields : Fields) : Except Fault Token := do
  let kind ← RecordType.require "kind" fields.kind
  let line ← RecordType.require "line" fields.line
  let column ← RecordType.require "column" fields.column
  let text ← RecordType.require "text" fields.text
  return { kind := kind, channel := fields.channel.getD 0, line := line, column := column,
           text := text }

def readInOrder : Reader Token := do
  let kind ← recordType.field 0 expectWord
  let channel ← RecordType.field? 1 expectWord
  let line ← recordType.field 2 expectWord
  let column ← recordType.field 3 expectWord
  let text ← recordType.field 4 expectText
  return { kind := kind, channel := channel.getD 0, line := line, column := column, text := text }

def read : Reader Token :=
  recordType.read readInOrder {} readMember ofFields

end Token

/-- A token stream with the tables that label it. -/
structure TokenDump where
  vocabulary : Vocabulary
  channels : Channels
  tokens : List Token

namespace TokenDump

def tokensToJson (tokens : List Token) : Json :=
  .list (tokens.map Token.toJson)

def table (dump : TokenDump) : TokenTable :=
  ⟨dump.channels, dump.vocabulary⟩

def draw [TextWidth] (glyphs : Glyphs) (dump : TokenDump) : String :=
  dump.table.draw glyphs dump.tokens

def recordType : RecordType := ⟨"TokenDump", 3⟩

structure Fields where
  vocabulary : Option Vocabulary := none
  channels : Option Channels := none
  tokens : Option (List Token) := none

def readTokens : Reader (List Token) := expectList Token.read

def readMember (key : String) (fields : Fields) : Reader Fields := do
  match key with
  | "vocabulary" =>
      return { fields with vocabulary := ← RecordType.once key fields.vocabulary Vocabulary.read }
  | "channels" =>
      return { fields with channels := ← RecordType.once key fields.channels Channels.read }
  | "tokens" => return { fields with tokens := ← RecordType.once key fields.tokens readTokens }
  | _ =>
      RecordType.ignore
      return fields

def ofFields (fields : Fields) : Except Fault TokenDump := do
  let tokens ← RecordType.require "tokens" fields.tokens
  return { vocabulary := fields.vocabulary.getD {}, channels := fields.channels.getD .standard,
           tokens := tokens }

def readInOrder : Reader TokenDump := do
  let vocabulary ← RecordType.field? 0 Vocabulary.read
  let channels ← RecordType.field? 1 Channels.read
  let tokens ← recordType.field 2 readTokens
  return { vocabulary := vocabulary.getD {}, channels := channels.getD .standard,
           tokens := tokens }

def read : Reader TokenDump :=
  recordType.read readInOrder {} readMember ofFields

def ofText (text : String) : Except Fault TokenDump :=
  readDocument read text

end TokenDump

end ParseView
