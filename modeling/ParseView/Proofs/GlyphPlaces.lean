import ParseView.Proofs.Margins
import ParseView.Proofs.TableGeometry
import ParseView.Token.Render
import ParseView.Tree.Render

/-! Glyphs never influence a layout. Every drawing is one sequence of characters and of places left
open for glyphs, which the input alone decides, and each set of glyphs just fills the open
places. -/

namespace ParseView

open Picture

variable {Slot : Type}

/-- What stands in one character of a drawing. -/
inductive Place (Slot : Type) where
  | fixed (character : Char)
  | glyph (slot : Slot)
deriving DecidableEq, Repr

namespace Place

def fill (fill : Slot → Char) : Place Slot → Char
  | fixed character => character
  | glyph slot => fill slot

theorem eq_of_fill_eq [DecidableEq Slot] {first second : Place Slot}
    (same : ∀ choice : Slot → Char, first.fill choice = second.fill choice) : first = second := by
  -- Two different places are told apart by a choice of glyphs made for them.
  have other (character : Char) : ∃ glyph : Char, glyph ≠ character := by
    by_cases letter : character = 'a'
    · exact ⟨'b', by simp [letter]⟩
    · exact ⟨'a', Ne.symm letter⟩
  cases first with
  | fixed character =>
      obtain ⟨glyph, different⟩ := other character
      cases second with
      | fixed another => exact congrArg fixed (same fun _ => glyph)
      | glyph slot => exact absurd (same fun _ => glyph).symm different
  | glyph slot =>
      cases second with
      | fixed another =>
          obtain ⟨glyph, different⟩ := other another
          exact absurd (same fun _ => glyph) different
      | glyph another =>
          have equal := same fun place => if place = slot then 'a' else 'b'
          by_cases apart : another = slot
          · rw [apart]
          · simp [fill, apart] at equal

theorem eq_of_map_fill_eq [DecidableEq Slot] {first second : List (Place Slot)}
    (same : ∀ choice : Slot → Char, first.map (fill choice) = second.map (fill choice)) :
    first = second := by
  induction first generalizing second with
  | nil =>
      have none := same fun _ => ' '
      rw [List.map_nil] at none
      exact (List.map_eq_nil_iff.mp none.symm).symm
  | cons place rest ih =>
      cases second with
      | nil => exact absurd (same fun _ => ' ') (by simp)
      | cons another others =>
          simp only [List.map_cons, List.cons.injEq] at same
          rw [eq_of_fill_eq fun choice => (same choice).1, ih fun choice => (same choice).2]

end Place

namespace Piece

def places : Piece Slot → List (Place Slot)
  | glyph slot => [.glyph slot]
  | text content => content.toList.map .fixed
  | blank count => List.replicate count (.fixed ' ')
  | newline => [.fixed '\n']

theorem characters_eq_map_fill (choice : Slot → Char) (piece : Piece Slot) :
    piece.characters choice = piece.places.map (Place.fill choice) := by
  cases piece with
  | glyph slot => rfl
  | text content => simp [characters, places, Function.comp_def, Place.fill]
  | blank count => simp [characters, places, Place.fill]
  | newline => rfl

def Brings (Known : Char → Prop) (piece : Piece Slot) : Prop :=
  ∀ character, .fixed character ∈ piece.places → Known character

variable (Known : Char → Prop)

@[simp] theorem brings_glyph (slot : Slot) : (glyph slot).Brings Known := by
  simp [Brings, places]

@[simp] theorem brings_text_iff (content : String) :
    (text content : Piece Slot).Brings Known ↔ ∀ character ∈ content.toList, Known character := by
  simp [Brings, places]

theorem brings_blank (known : Known ' ') (count : Nat) :
    (blank count : Piece Slot).Brings Known := by
  intro character member
  simp only [places, List.mem_replicate, Place.fixed.injEq] at member
  exact member.2 ▸ known

theorem brings_newline (known : Known '\n') : (newline : Piece Slot).Brings Known := by
  simpa [Brings, places] using known

end Piece

namespace Picture

def places (picture : Picture Slot) : List (Place Slot) :=
  picture.flatMap Piece.places

theorem characters_eq_map_fill (choice : Slot → Char) (picture : Picture Slot) :
    picture.characters choice = picture.places.map (Place.fill choice) := by
  induction picture with
  | nil => rfl
  | cons piece rest ih =>
      rw [characters_cons, ih, Piece.characters_eq_map_fill, ← List.map_append]
      rfl

theorem known_of_mem_places {picture : Picture Slot} {Known : Char → Prop}
    (brings : ∀ piece ∈ picture, piece.Brings Known) {character : Char}
    (member : .fixed character ∈ picture.places) : Known character := by
  obtain ⟨piece, among, inside⟩ := List.mem_flatMap.mp member
  exact brings piece among character inside

end Picture

def Corresponds (Known : Char → Prop) (first second : Slot → Char) (one other : Char) : Prop :=
  one = other ∧ Known one ∨ ∃ slot, one = first slot ∧ other = second slot

/-- Glyphs do no more than fill the open places of a drawing, whether it is drawn as a whole or
written bit by bit. -/
structure FillsPlaces (choose : Glyphs → Slot → Char) (Known : Char → Prop)
    (drawn : Glyphs → String)
    (render : Glyphs → {m : Type → Type} → [Monad m] → (String → m Unit) → m Unit) : Prop where
  places : ∃! places : List (Place Slot), ∀ glyphs,
    (drawn glyphs).toList = places.map (Place.fill (choose glyphs))
  written : ∃ writes : List (List (Place Slot)), ∀ glyphs,
    (drawn glyphs).toList = writes.flatten.map (Place.fill (choose glyphs)) ∧
      ∀ {m : Type → Type} [Monad m] [LawfulMonad m] (put : String → m Unit),
        render glyphs put =
          (writes.map fun write => String.ofList (write.map (Place.fill (choose glyphs)))).forM put
  corresponds : ∀ first second, List.Forall₂ (Corresponds Known (choose first) (choose second))
    (drawn first).toList (drawn second).toList

theorem fillsPlaces_of_picture [DecidableEq Slot] {choose : Glyphs → Slot → Char}
    (chosen : ∀ choice, ∃ glyphs, choose glyphs = choice) {Known : Char → Prop}
    {picture : Picture Slot} (brings : ∀ piece ∈ picture, piece.Brings Known)
    {render : Glyphs → {m : Type → Type} → [Monad m] → (String → m Unit) → m Unit}
    (writes : ∀ glyphs {m : Type → Type} [Monad m] [LawfulMonad m] (put : String → m Unit),
      render glyphs put = picture.writeTo put (choose glyphs)) :
    FillsPlaces choose Known (fun glyphs => picture.draw (choose glyphs)) render where
  places := by
    refine ⟨picture.places, ?_, ?_⟩
    · intro glyphs
      rw [toList_draw, characters_eq_map_fill]
    · intro others same
      apply Place.eq_of_map_fill_eq
      intro choice
      obtain ⟨glyphs, rfl⟩ := chosen choice
      rw [← same glyphs, toList_draw, characters_eq_map_fill]
  written := by
    refine ⟨picture.map Piece.places, ?_⟩
    intro glyphs
    constructor
    · rw [toList_draw, characters_eq_map_fill, Picture.places, List.flatMap_def]
    · intro m _ _ put
      rw [writes, writeTo, List.map_map]
      congr 1
      refine List.map_congr_left fun piece _ => ?_
      rw [Piece.draw, Piece.characters_eq_map_fill, Function.comp_apply]
  corresponds := by
    intro first second
    rw [toList_draw, toList_draw, characters_eq_map_fill, characters_eq_map_fill,
      List.forall₂_map_left_iff, List.forall₂_map_right_iff, List.forall₂_same]
    intro place member
    cases place with
    | fixed character => exact .inl ⟨rfl, known_of_mem_places brings member⟩
    | glyph slot => exact .inr ⟨slot, rfl, rfl⟩

namespace Tree

def Inscribed (style : TreeStyle) (root : Tree) (character : Char) : Prop :=
  character = ' ' ∨ character = '\n' ∨ (∃ caption ∈ root.captions, character ∈ caption.toList) ∨
    style.positions = true ∧ ∃ matched ∈ root.leaves, ∃ position, matched.position = some position ∧
      character ∈ ((Gutter.fit root).positionText position).toList

section Inscription

variable (style : TreeStyle) (root : Tree)

theorem inscribed_blank : root.Inscribed style ' ' := .inl rfl

theorem brings_margin (shown : Option Position)
    (placed : ∀ position, shown = some position →
      ∃ matched ∈ root.leaves, matched.position = some position) :
    ∀ piece ∈ margin (root.gutterOf style) shown, piece.Brings (root.Inscribed style) := by
  intro piece member
  cases positions : style.positions with
  | false => simp [gutterOf, positions, margin] at member
  | true =>
      rw [gutterOf, if_pos positions, margin] at member
      cases shown with
      | none =>
          rw [List.mem_singleton.mp member]
          exact Piece.brings_blank _ (inscribed_blank style root) _
      | some position =>
          obtain ⟨matched, among, known⟩ := placed position rfl
          rw [List.mem_singleton.mp member, Piece.brings_text_iff]
          exact fun character inside =>
            .inr (.inr (.inr ⟨positions, matched, among, position, known, inside⟩))

theorem brings_line [TextWidth] : ∀ line ∈ root.lines style.policy, ∀ piece ∈ line.pieces,
    piece.Brings (root.Inscribed style) := by
  apply forall_piece_lines
  · intro piece mark
    cases piece with
    | glyph slot => exact Piece.brings_glyph _ slot
    | blank count => exact Piece.brings_blank _ (inscribed_blank style root) count
    | text content => exact mark.elim
    | newline => exact mark.elim
  · intro texts each
    simp only [Piece.brings_text_iff, String.toList_intercalate] at each ⊢
    intro character member
    rcases mem_or_exists_of_mem_intercalate member with blank | ⟨_, among, inside⟩
    · have space : character = ' ' := by simpa using blank
      exact space ▸ inscribed_blank style root
    · obtain ⟨text, original, rfl⟩ := List.mem_map.mp among
      exact each text original character inside
  · intro caption member
    rw [Piece.brings_text_iff]
    exact fun character inside => .inr (.inr (.inl ⟨caption, member, inside⟩))

theorem brings_picture [TextWidth] : ∀ piece ∈ root.picture style, piece.Brings
    (root.Inscribed style) := by
  intro piece member
  rw [picture_eq_ofLines, ofLines, List.mem_flatMap] at member
  obtain ⟨row, drawn, inside⟩ := member
  obtain ⟨line, among, rfl⟩ := List.mem_map.mp drawn
  rw [BlockLine.row, List.mem_append, List.mem_append, List.mem_singleton] at inside
  rcases inside with (shown | own) | rfl
  · exact brings_margin style root line.position
      (exists_leaf_of_mem_lines style.policy root line among) piece shown
  · exact brings_line style root line among piece own
  · exact Piece.brings_newline _ (.inr (.inl rfl))

theorem fillsPlaces [TextWidth] : FillsPlaces Glyphs.connector (root.Inscribed style)
    (fun glyphs => root.draw glyphs style)
    (fun glyphs => fun put => root.render put glyphs style) :=
  fillsPlaces_of_picture (fun choice => ⟨⟨choice, Glyphs.unicode.stroke⟩, rfl⟩)
    (brings_picture style root) (fun glyphs => fun put => render_eq put glyphs style root)

end Inscription

end Tree

namespace TokenTable

def Inscribed (table : TokenTable) (tokens : List Token) (character : Char) : Prop :=
  character = ' ' ∨ character = '\n' ∨
    ∃ row ∈ table.header :: table.rows 1 tokens, ∃ cell ∈ row, character ∈ cell.toList

section Inscription

variable (table : TokenTable) (tokens : List Token)

theorem brings_picture [TextWidth] :
    ∀ piece ∈ table.picture tokens, piece.Brings (table.Inscribed tokens) := by
  have lines := table.forall_piece_lines tokens (Piece.Brings (table.Inscribed tokens))
    (Piece.brings_glyph _) (Piece.brings_blank _ (.inl rfl)) (by
      intro row member cell inside
      rw [Piece.brings_text_iff]
      exact fun character shown => .inr (.inr ⟨row, member, cell, inside, shown⟩))
  intro piece member
  rw [picture_eq_ofLines, ofLines, List.mem_flatMap] at member
  obtain ⟨line, among, inside⟩ := member
  rw [List.mem_append, List.mem_singleton] at inside
  rcases inside with own | rfl
  · exact lines line among piece own
  · exact Piece.brings_newline _ (.inr (.inl rfl))

theorem fillsPlaces [TextWidth] : FillsPlaces Glyphs.stroke (table.Inscribed tokens)
    (fun glyphs => table.draw glyphs tokens)
    (fun glyphs => fun put => table.render put glyphs tokens) :=
  fillsPlaces_of_picture (fun choice => ⟨⟨Glyphs.unicode.connector, choice⟩, rfl⟩)
    (brings_picture table tokens) (fun glyphs => fun put => render_eq put glyphs table tokens)

end Inscription

end TokenTable

/-- Drawings of one tree, or of one table, under any two sets of glyphs have the same layout: they
correspond character by character, since both fill the same open places. -/
theorem glyphs_fill_places [TextWidth] :
    (∀ (style : TreeStyle) (root : Tree), FillsPlaces Glyphs.connector (root.Inscribed style)
      (fun glyphs => root.draw glyphs style)
      (fun glyphs => fun put => root.render put glyphs style)) ∧
    ∀ (table : TokenTable) (tokens : List Token), FillsPlaces Glyphs.stroke
      (table.Inscribed tokens) (fun glyphs => table.draw glyphs tokens)
      (fun glyphs => fun put => table.render put glyphs tokens) :=
  ⟨fun style root => Tree.fillsPlaces style root,
    fun table tokens => TokenTable.fillsPlaces table tokens⟩

end ParseView
