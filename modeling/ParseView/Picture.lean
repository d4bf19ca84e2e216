import ParseView.Text.Width

/-! Drawings as sequences of pieces. A drawing names the places of its glyphs and leaves open
which characters fill them. -/

namespace ParseView

/-- What a drawing is put together from; `slot` names the place of a glyph. -/
inductive Piece (Slot : Type) where
  | glyph (slot : Slot)
  | text (content : String)
  | blank (count : Nat)
  | newline
deriving DecidableEq, Repr

abbrev Picture (Slot : Type) := List (Piece Slot)

variable {Slot : Type}

namespace Piece

def characters (fill : Slot → Char) : Piece Slot → List Char
  | glyph slot => [fill slot]
  | text content => content.toList
  | blank count => List.replicate count ' '
  | newline => ['\n']

def draw (fill : Slot → Char) (piece : Piece Slot) : String :=
  String.ofList (piece.characters fill)

/-- Display columns of a piece; a line end takes none. -/
def width [TextWidth] : Piece Slot → Nat
  | glyph _ => 1
  | text content => displayWidth content
  | blank count => count
  | newline => 0

end Piece

namespace Picture

def characters (fill : Slot → Char) (picture : Picture Slot) : List Char :=
  picture.flatMap (Piece.characters fill)

def draw (fill : Slot → Char) (picture : Picture Slot) : String :=
  String.ofList (picture.characters fill)

def writeTo {m : Type → Type} [Monad m] (put : String → m Unit) (fill : Slot → Char)
    (picture : Picture Slot) : m Unit :=
  (picture.map (Piece.draw fill)).forM put

def width [TextWidth] : Picture Slot → Nat
  | [] => 0
  | piece :: rest => piece.width + width rest

@[simp] theorem characters_nil (fill : Slot → Char) :
    Picture.characters fill ([] : Picture Slot) = [] := rfl

@[simp] theorem characters_cons (fill : Slot → Char) (piece : Piece Slot)
    (picture : Picture Slot) :
    Picture.characters fill (piece :: picture) =
      piece.characters fill ++ Picture.characters fill picture := rfl

@[simp] theorem characters_append (fill : Slot → Char) (first second : Picture Slot) :
    Picture.characters fill (first ++ second) =
      Picture.characters fill first ++ Picture.characters fill second := by
  simp [Picture.characters]

@[simp] theorem toList_draw (fill : Slot → Char) (picture : Picture Slot) :
    (picture.draw fill).toList = picture.characters fill := by
  simp [draw]

theorem join_map_draw (fill : Slot → Char) (picture : Picture Slot) :
    String.join (picture.map (Piece.draw fill)) = picture.draw fill := by
  induction picture with
  | nil => rfl
  | cons piece rest ih =>
      rw [List.map_cons, String.join_cons, ih, draw, draw, Piece.draw, characters_cons,
        String.ofList_append]

section Writing

variable {m : Type → Type} [Monad m] (put : String → m Unit) (fill : Slot → Char)

@[simp] theorem writeTo_nil : writeTo put fill ([] : Picture Slot) = pure () := rfl

@[simp] theorem writeTo_cons (piece : Piece Slot) (rest : Picture Slot) :
    writeTo put fill (piece :: rest) =
      put (piece.draw fill) >>= fun _ => writeTo put fill rest := rfl

theorem writeTo_append [LawfulMonad m] (first second : Picture Slot) :
    writeTo put fill (first ++ second) =
      writeTo put fill first >>= fun _ => writeTo put fill second := by
  rw [writeTo, List.map_append, List.forM_eq_forM, List.forM_append]
  rfl

theorem writeTo_flatMap [LawfulMonad m] {Item : Type} (pieces : Item → Picture Slot)
    (items : List Item) :
    writeTo put fill (items.flatMap pieces) =
      items.forM fun item => writeTo put fill (pieces item) := by
  induction items with
  | nil => rfl
  | cons item rest ih =>
      rw [List.flatMap_cons, writeTo_append, ih]
      rfl

end Writing

end Picture

end ParseView
