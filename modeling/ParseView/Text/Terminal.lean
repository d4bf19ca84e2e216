import ParseView.Text.Combining
import ParseView.Text.Invisible
import ParseView.Text.Width

/-! A measure of texts in terminal columns. Widths add up over characters, but for sequences that
are drawn as one: a line end, an Arabic ligature, and emoji that a selector, a modifier or joiners
put together. -/

namespace ParseView.Terminal

/-- Finals and vowels drawn into the Hangul syllable before them, and signs drawn over what
follows. -/
def overlaidRanges : List (Nat × Nat) :=
  [(0x0605, 0x0605), (0x070F, 0x070F), (0x0890, 0x0891), (0x08E2, 0x08E2), (0x1160, 0x11FF),
   (0xA8FA, 0xA8FA), (0xD7B0, 0xD7C6), (0xD7CB, 0xD7FB)]

def eastAsianRanges : List (Nat × Nat) :=
  [(0x1100, 0x115F), (0x2329, 0x232A), (0x2630, 0x2637), (0x268A, 0x268F), (0x2E80, 0x303E),
   (0x3041, 0x31E5), (0x31EF, 0x3247), (0x3250, 0xA4C6), (0xA960, 0xA97C), (0xAC00, 0xD7A3),
   (0xF900, 0xFAFF), (0xFE10, 0xFE19), (0xFE30, 0xFE6B), (0xFF01, 0xFF60), (0xFFE0, 0xFFE6),
   (0x16FE0, 0x18CFF), (0x1AFF0, 0x1B2FB), (0x1D300, 0x1D376), (0x1F200, 0x1F265),
   (0x20000, 0x2FFFD), (0x30000, 0x3FFFD)]

def pictureRanges : List (Nat × Nat) :=
  [(0x231A, 0x231B), (0x23E9, 0x23EC), (0x23F0, 0x23F0), (0x23F3, 0x23F3), (0x25FD, 0x25FE),
   (0x2614, 0x2615), (0x2648, 0x2653), (0x267F, 0x267F), (0x2693, 0x2693), (0x26A1, 0x26A1),
   (0x26AA, 0x26AB), (0x26BD, 0x26BE), (0x26C4, 0x26C5), (0x26CE, 0x26CE), (0x26D4, 0x26D4),
   (0x26EA, 0x26EA), (0x26F2, 0x26F3), (0x26F5, 0x26F5), (0x26FA, 0x26FA), (0x26FD, 0x26FD),
   (0x2705, 0x2705), (0x270A, 0x270B), (0x2728, 0x2728), (0x274C, 0x274C), (0x274E, 0x274E),
   (0x2753, 0x2755), (0x2757, 0x2757), (0x2795, 0x2797), (0x27B0, 0x27B0), (0x27BF, 0x27BF),
   (0x2B1B, 0x2B1C), (0x2B50, 0x2B50), (0x2B55, 0x2B55), (0x1F004, 0x1F004), (0x1F0CF, 0x1F0CF),
   (0x1F18E, 0x1F18E), (0x1F191, 0x1F19A), (0x1F300, 0x1F320), (0x1F32D, 0x1F335),
   (0x1F337, 0x1F37C), (0x1F37E, 0x1F393), (0x1F3A0, 0x1F3CA), (0x1F3CF, 0x1F3D3),
   (0x1F3E0, 0x1F3F0), (0x1F3F4, 0x1F3F4), (0x1F3F8, 0x1F43E), (0x1F440, 0x1F440),
   (0x1F442, 0x1F4FC), (0x1F4FF, 0x1F53D), (0x1F54B, 0x1F54E), (0x1F550, 0x1F567),
   (0x1F57A, 0x1F57A), (0x1F595, 0x1F596), (0x1F5A4, 0x1F5A4), (0x1F5FB, 0x1F64F),
   (0x1F680, 0x1F6C5), (0x1F6CC, 0x1F6CC), (0x1F6D0, 0x1F6D2), (0x1F6D5, 0x1F6D7),
   (0x1F6DC, 0x1F6DF), (0x1F6EB, 0x1F6EC), (0x1F6F4, 0x1F6FC), (0x1F7E0, 0x1F7EB),
   (0x1F7F0, 0x1F7F0), (0x1F90C, 0x1F93A), (0x1F93C, 0x1F945), (0x1F947, 0x1F9FF),
   (0x1FA70, 0x1FAFF)]

def selectableRanges : List (Nat × Nat) :=
  [(0x0023, 0x0023), (0x002A, 0x002A), (0x0030, 0x0039), (0x00A9, 0x00A9), (0x00AE, 0x00AE),
   (0x203C, 0x203C), (0x2049, 0x2049), (0x2122, 0x2122), (0x2139, 0x2139), (0x2194, 0x2199),
   (0x21A9, 0x21AA), (0x2328, 0x2328), (0x23CF, 0x23CF), (0x23ED, 0x23EF), (0x23F1, 0x23F2),
   (0x23F8, 0x23FA), (0x24C2, 0x24C2), (0x25AA, 0x25AB), (0x25B6, 0x25B6), (0x25C0, 0x25C0),
   (0x25FB, 0x25FC), (0x2600, 0x2604), (0x260E, 0x260E), (0x2611, 0x2611), (0x2618, 0x2618),
   (0x261D, 0x261D), (0x2620, 0x2620), (0x2622, 0x2623), (0x2626, 0x2626), (0x262A, 0x262A),
   (0x262E, 0x262F), (0x2638, 0x263A), (0x2640, 0x2640), (0x2642, 0x2642), (0x265F, 0x2660),
   (0x2663, 0x2663), (0x2665, 0x2666), (0x2668, 0x2668), (0x267B, 0x267B), (0x267E, 0x267E),
   (0x2692, 0x2692), (0x2694, 0x2697), (0x2699, 0x2699), (0x269B, 0x269C), (0x26A0, 0x26A0),
   (0x26A7, 0x26A7), (0x26B0, 0x26B1), (0x26C8, 0x26C8), (0x26CF, 0x26CF), (0x26D1, 0x26D1),
   (0x26D3, 0x26D3), (0x26E9, 0x26E9), (0x26F0, 0x26F1), (0x26F4, 0x26F4), (0x26F7, 0x26F9),
   (0x2702, 0x2702), (0x2708, 0x2709), (0x270C, 0x270D), (0x270F, 0x270F), (0x2712, 0x2712),
   (0x2714, 0x2714), (0x2716, 0x2716), (0x271D, 0x271D), (0x2721, 0x2721), (0x2733, 0x2734),
   (0x2744, 0x2744), (0x2747, 0x2747), (0x2763, 0x2764), (0x27A1, 0x27A1), (0x2934, 0x2935),
   (0x2B05, 0x2B07), (0x3030, 0x3030), (0x303D, 0x303D), (0x3297, 0x3297), (0x3299, 0x3299),
   (0x1F170, 0x1F171), (0x1F17E, 0x1F17F), (0x1F202, 0x1F202), (0x1F237, 0x1F237),
   (0x1F321, 0x1F321), (0x1F324, 0x1F32C), (0x1F336, 0x1F336), (0x1F37D, 0x1F37D),
   (0x1F396, 0x1F397), (0x1F399, 0x1F39B), (0x1F39E, 0x1F39F), (0x1F3CB, 0x1F3CE),
   (0x1F3D4, 0x1F3DF), (0x1F3F3, 0x1F3F3), (0x1F3F5, 0x1F3F5), (0x1F3F7, 0x1F3F7),
   (0x1F43F, 0x1F43F), (0x1F441, 0x1F441), (0x1F4FD, 0x1F4FD), (0x1F549, 0x1F54A),
   (0x1F56F, 0x1F570), (0x1F573, 0x1F579), (0x1F587, 0x1F587), (0x1F58A, 0x1F58D),
   (0x1F590, 0x1F590), (0x1F5A5, 0x1F5A5), (0x1F5A8, 0x1F5A8), (0x1F5B1, 0x1F5B2),
   (0x1F5BC, 0x1F5BC), (0x1F5C2, 0x1F5C4), (0x1F5D1, 0x1F5D3), (0x1F5DC, 0x1F5DE),
   (0x1F5E1, 0x1F5E1), (0x1F5E3, 0x1F5E3), (0x1F5E8, 0x1F5E8), (0x1F5EF, 0x1F5EF),
   (0x1F5F3, 0x1F5F3), (0x1F5FA, 0x1F5FA), (0x1F6CB, 0x1F6CB), (0x1F6CD, 0x1F6CF),
   (0x1F6E0, 0x1F6E5), (0x1F6E9, 0x1F6E9), (0x1F6F0, 0x1F6F0), (0x1F6F3, 0x1F6F3)]

def modifiableRanges : List (Nat × Nat) :=
  [(0x261D, 0x261D), (0x26F9, 0x26F9), (0x270A, 0x270D), (0x1F385, 0x1F385), (0x1F3C2, 0x1F3C4),
   (0x1F3C7, 0x1F3C7), (0x1F3CA, 0x1F3CC), (0x1F442, 0x1F443), (0x1F446, 0x1F450),
   (0x1F466, 0x1F478), (0x1F47C, 0x1F47C), (0x1F481, 0x1F483), (0x1F485, 0x1F487),
   (0x1F48F, 0x1F48F), (0x1F491, 0x1F491), (0x1F4AA, 0x1F4AA), (0x1F574, 0x1F575),
   (0x1F57A, 0x1F57A), (0x1F590, 0x1F590), (0x1F595, 0x1F596), (0x1F645, 0x1F647),
   (0x1F64B, 0x1F64F), (0x1F6A3, 0x1F6A3), (0x1F6B4, 0x1F6B6), (0x1F6C0, 0x1F6C0),
   (0x1F6CC, 0x1F6CC), (0x1F90C, 0x1F90C), (0x1F90F, 0x1F90F), (0x1F918, 0x1F91F),
   (0x1F926, 0x1F926), (0x1F930, 0x1F939), (0x1F93C, 0x1F93E), (0x1F977, 0x1F977),
   (0x1F9B5, 0x1F9B6), (0x1F9B8, 0x1F9B9), (0x1F9BB, 0x1F9BB), (0x1F9CD, 0x1F9CF),
   (0x1F9D1, 0x1F9DD), (0x1FAC3, 0x1FAC5), (0x1FAF0, 0x1FAF8)]

def charWidth (character : Char) : Nat :=
  if character.toNat < 0x80 then 1
  else if character.toNat = 0x17D8 then 3
  else if character.toNat = 0x115F ∨ character.toNat = 0x17A4 then 2
  else if character.toNat = 0x2D7F then 1
  else if isCombining character || isIgnorable character || inRanges overlaidRanges character then 0
  else if inRanges eastAsianRanges character || inRanges pictureRanges character then 2
  else 1

def completes (base mark : Char) : Bool :=
  if mark.toNat = 0xFE0F then inRanges pictureRanges base || inRanges selectableRanges base
  else inRanges [(0x1F3FB, 0x1F3FF)] mark && inRanges modifiableRanges base

def isJoiner (character : Char) : Bool :=
  character.toNat == 0x200D

/-- The characters of the emoji at the start of a text, with all that joiners append to it; none
where there is no emoji. -/
def emojiLength : List Char → Nat
  | base :: mark :: joiner :: rest =>
      if completes base mark then
        2 + if isJoiner joiner then joined (emojiLength rest) else 0
      else if inRanges pictureRanges base then
        1 + if isJoiner mark then joined (emojiLength (joiner :: rest)) else 0
      else 0
  | [base, mark] =>
      if completes base mark then 2 else if inRanges pictureRanges base then 1 else 0
  | [base] => if inRanges pictureRanges base then 1 else 0
  | [] => 0
where
  joined (length : Nat) : Nat := if length = 0 then 0 else length + 1

def lamRanges : List (Nat × Nat) :=
  [(0x0644, 0x0644), (0x06B5, 0x06B8), (0x076A, 0x076A), (0x08A6, 0x08A6), (0x08C7, 0x08C7)]

def alefRanges : List (Nat × Nat) :=
  [(0x0622, 0x0623), (0x0625, 0x0625), (0x0627, 0x0627), (0x0671, 0x0673), (0x0675, 0x0675),
   (0x0773, 0x0774), (0x0870, 0x0882)]

/-- How many characters after the first one are drawn with it, and the columns of them all. -/
def unit (first : Char) (rest : List Char) : Nat × Nat :=
  let marks := rest.takeWhile isCombining
  if first = '\r' ∧ rest.head? = some '\n' then (1, 1)
  else if inRanges lamRanges first ∧
      (rest.drop marks.length).head?.any (inRanges alefRanges) then (marks.length + 1, 1)
  else if emojiLength (first :: rest) > 1 then (emojiLength (first :: rest) - 1, 2)
  else (0, charWidth first)

/-- The columns of the characters after the first `covered` of them, which belong to a unit that
is counted already. -/
def columnsAfter : Nat → List Char → Nat
  | _, [] => 0
  | covered + 1, _ :: rest => columnsAfter covered rest
  | 0, first :: rest => (unit first rest).2 + columnsAfter (unit first rest).1 rest

theorem inRanges_of_isNarrow {ranges : List (Nat × Nat)} {character : Char}
    (narrow : IsNarrow character) (beyond : ∀ range ∈ ranges, 0x7F ≤ range.1) :
    inRanges ranges character = false := by
  simp only [inRanges, List.any_eq_false, Bool.and_eq_true, decide_eq_true_eq]
  intro range member ⟨above, _⟩
  exact absurd (Nat.le_trans (beyond range member) above) (Nat.not_le.mpr narrow.2)

theorem completes_of_isNarrow {mark : Char} (narrow : IsNarrow mark) (base : Char) :
    completes base mark = false := by
  have small := narrow.2
  rw [completes, if_neg (by omega), inRanges_of_isNarrow narrow (by decide)]
  rfl

theorem emojiLength_of_isNarrow {first : Char} {rest : List Char} (narrow : IsNarrow first)
    (others : ∀ character ∈ rest, IsNarrow character) : emojiLength (first :: rest) = 0 := by
  have plain : inRanges pictureRanges first = false :=
    inRanges_of_isNarrow narrow (by decide)
  rcases rest with - | ⟨mark, - | ⟨joiner, rest⟩⟩
  · simp [emojiLength, plain]
  all_goals simp [emojiLength, plain, completes_of_isNarrow (others mark (by simp))]

theorem unit_of_isNarrow {first : Char} {rest : List Char} (narrow : IsNarrow first)
    (others : ∀ character ∈ rest, IsNarrow character) : unit first rest = (0, 1) := by
  have graphic : first ≠ '\r' := by
    rintro rfl
    exact absurd narrow (by decide)
  have notLam : inRanges lamRanges first = false := inRanges_of_isNarrow narrow (by decide)
  have one : charWidth first = 1 := by
    rw [charWidth, if_pos (Nat.lt_trans narrow.2 (by decide))]
  simp [unit, graphic, notLam, emojiLength_of_isNarrow narrow others, one]

theorem columnsAfter_of_isNarrow (characters : List Char)
    (narrow : ∀ character ∈ characters, IsNarrow character) :
    columnsAfter 0 characters = characters.length := by
  induction characters with
  | nil => rfl
  | cons first rest ih =>
      have later : ∀ character ∈ rest, IsNarrow character :=
        fun character member => narrow character (by simp [member])
      rw [columnsAfter, unit_of_isNarrow (narrow first (by simp)) later, ih later,
        List.length_cons, Nat.add_comm]

/-- The measure that the program draws with. Units are recognised from left to right and do not
overlap. -/
abbrev measure : TextWidth where
  displayWidth text := columnsAfter 0 text.toList
  displayWidth_of_narrow text := columnsAfter_of_isNarrow text.toList

end ParseView.Terminal
