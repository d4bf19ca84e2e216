/-! Names of token kinds. -/

namespace ParseView

/-- The names of token kinds, each table indexed by kind: symbolic names, and the literal
spellings of kinds that are always written the same way. -/
structure Vocabulary where
  symbolic : List (Option String) := []
  literal : List (Option String) := []
deriving DecidableEq, Repr, Inhabited

namespace Vocabulary

def nameIn (table : List (Option String)) (kind : UInt32) : Option String :=
  (table[kind.toNat]?).join

def symbolicName (vocabulary : Vocabulary) (kind : UInt32) : Option String :=
  nameIn vocabulary.symbolic kind

def literalName (vocabulary : Vocabulary) (kind : UInt32) : Option String :=
  nameIn vocabulary.literal kind

/-- The symbolic name, else the literal one, else the kind as a number. -/
def displayName (vocabulary : Vocabulary) (kind : UInt32) : String :=
  match vocabulary.symbolicName kind, vocabulary.literalName kind with
  | some name, _ => name
  | none, some name => name
  | none, none => toString kind.toNat

def hasLiteral (vocabulary : Vocabulary) (kind : UInt32) : Bool :=
  (vocabulary.literalName kind).isSome

def entries (table : List (Option String)) : List (Nat × String) :=
  table.zipIdx.filterMap fun entry => entry.1.map fun name => (entry.2, name)

def enter (table : List (Option String)) (kind : Nat) (name : String) : List (Option String) :=
  (table ++ List.replicate (kind + 1 - table.length) none).set kind (some name)

end Vocabulary

end ParseView
