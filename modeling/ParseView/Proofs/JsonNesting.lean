import ParseView.Proofs.JsonValues

/-! How deep brackets are nested in a JSON text. In the compact text of a value they are nested
as deep as the value's lists and objects. -/

namespace ParseView.Json

/-- A place in a JSON text: how many brackets are open, the most that were open so far, and
whether the place is inside quotation marks, there perhaps right after a backslash. -/
structure Scan where
  opened : Nat := 0
  deepest : Nat := 0
  quoted : Bool := false
  escaped : Bool := false

namespace Scan

def step (scan : Scan) (character : Char) : Scan :=
  if scan.escaped then { scan with escaped := false }
  else if scan.quoted then
    { scan with quoted := character != '"', escaped := character == '\\' }
  else if character = '"' then { scan with quoted := true }
  else if character = '[' ∨ character = '\x7b' then
    { scan with opened := scan.opened + 1, deepest := max scan.deepest (scan.opened + 1) }
  else if character = ']' ∨ character = '\x7d' then { scan with opened := scan.opened - 1 }
  else scan

end Scan

/-- The most brackets that are open at one place of a text. Brackets in quotation marks are not
counted. -/
def nesting (text : String) : Nat :=
  (text.toList.foldl Scan.step {}).deepest

namespace Scan

def outside (opened deepest : Nat) : Scan :=
  { opened := opened, deepest := deepest }

def isPlain (character : Char) : Bool :=
  ['"', '[', ']', '\x7b', '\x7d'].all fun mark => character != mark

theorem step_of_isPlain {opened deepest : Nat} {character : Char}
    (plain : isPlain character = true) :
    step (outside opened deepest) character = outside opened deepest := by
  simp only [isPlain, List.all_cons, List.all_nil, Bool.and_true, Bool.and_eq_true,
    bne_iff_ne] at plain
  simp [step, outside, plain]

theorem foldl_escapedChar (opened deepest : Nat) (character : Char) :
    (escapedChar character).foldl step ⟨opened, deepest, true, false⟩ =
      ⟨opened, deepest, true, false⟩ := by
  have digits (value : Nat) : hexDigit value ≠ '"' ∧ hexDigit value ≠ '\\' := by
    have each : ∀ digit < 16, Nat.digitChar digit ≠ '"' ∧ Nat.digitChar digit ≠ '\\' := by decide
    exact each _ (Nat.mod_lt _ (by decide))
  unfold escapedChar
  split
  case h_8 =>
    split
    case isTrue control => simp [step, digits]
    case isFalse plain => simp_all [step]
  all_goals simp [step]

end Scan

open Scan

/-- Brackets are nested so deep in the text, from wherever the scan of it starts. -/
def Nests (text : List Char) (depth : Nat) : Prop :=
  ∀ opened deepest, opened ≤ deepest → text.foldl step (outside opened deepest) =
    outside opened (max deepest (opened + depth))

namespace Nests

theorem nil : Nests [] 0 := by
  intro opened deepest within
  rw [Nat.add_zero, Nat.max_eq_left within]
  rfl

theorem append {first second : List Char} {depth other : Nat} (front : Nests first depth)
    (back : Nests second other) : Nests (first ++ second) (max depth other) := by
  intro opened deepest within
  have covered : opened ≤ max deepest (opened + depth) := by omega
  have deeper : max (max deepest (opened + depth)) (opened + other) =
      max deepest (opened + max depth other) := by omega
  rw [List.foldl_append, front opened deepest within, back opened _ covered, deeper]

theorem plain {text : List Char} (unmarked : text.all isPlain = true) : Nests text 0 := by
  induction text with
  | nil => exact nil
  | cons first rest ih =>
      intro opened deepest within
      rw [List.all_cons, Bool.and_eq_true] at unmarked
      rw [List.foldl_cons, step_of_isPlain unmarked.1]
      exact ih unmarked.2 opened deepest within

theorem textCharacters (value : String) : Nests (textCharacters value) 0 := by
  intro opened deepest within
  have inside (characters : List Char) :
      (characters.flatMap escapedChar).foldl step ⟨opened, deepest, true, false⟩ =
        ⟨opened, deepest, true, false⟩ := by
    induction characters with
    | nil => rfl
    | cons first rest ih => rw [List.flatMap_cons, List.foldl_append, foldl_escapedChar, ih]
  have start : step (outside opened deepest) '"' = ⟨opened, deepest, true, false⟩ := rfl
  rw [Json.textCharacters, List.cons_append, List.foldl_cons, List.foldl_append, start, inside,
    Nat.add_zero, Nat.max_eq_left within]
  rfl

theorem bracketed {text : List Char} {depth : Nat} (nested : Nests text depth)
    {opener closer : Char}
    (pair : opener = '[' ∧ closer = ']' ∨ opener = '\x7b' ∧ closer = '\x7d') :
    Nests (opener :: text ++ [closer]) (depth + 1) := by
  intro opened deepest within
  have enters : step (outside opened deepest) opener =
      outside (opened + 1) (max deepest (opened + 1)) := by
    rcases pair with ⟨rfl, _⟩ | ⟨rfl, _⟩ <;> rfl
  have leaves (bound : Nat) : step (outside (opened + 1) bound) closer = outside opened bound := by
    rcases pair with ⟨_, rfl⟩ | ⟨_, rfl⟩ <;> rfl
  have deeper : max (max deepest (opened + 1)) (opened + 1 + depth) =
      max deepest (opened + (depth + 1)) := by omega
  rw [List.cons_append, List.foldl_cons, List.foldl_append, enters,
    nested _ _ (Nat.le_max_right _ _), deeper]
  exact leaves _

theorem separated {Item : Type} (shown : Item → List Char) (depth : Item → Nat)
    (items : List Item) (each : ∀ item ∈ items, Nests (shown item) (depth item)) (isFirst : Bool) :
    Nests (separated isFirst (items.map shown)) ((items.map depth).foldr max 0) := by
  induction items generalizing isFirst with
  | nil => exact nil
  | cons item rest ih =>
      have here := each item (by simp)
      have later := ih (fun other member => each other (by simp [member])) false
      have comma : Nests (if isFirst then [] else [',']) 0 := by
        cases isFirst
        · exact plain (by decide)
        · exact nil
      have whole := (comma.append here).append later
      rw [Nat.zero_max] at whole
      exact whole

end Nests

theorem listDepth_eq (items : List Json) : listDepth items = (items.map depth).foldr max 0 := by
  induction items with
  | nil => rfl
  | cons first rest ih => rw [listDepth, ih]; rfl

theorem memberDepth_eq (members : List (String × Json)) :
    memberDepth members = (members.map fun member => member.2.depth).foldr max 0 := by
  rw [memberDepth_eq_listDepth, listDepth_eq, List.map_map]
  rfl

theorem nests_characters {value : Json} (integral : value.Integral) :
    Nests value.characters value.depth := by
  induction integral with
  | null => exact .plain (by decide)
  | boolean value => cases value <;> exact .plain (by decide)
  | @integer value least greatest =>
      -- Digits and a sign: neither a bracket nor a quotation mark.
      apply Nests.plain
      rw [List.all_eq_true]
      intro character member
      have numeral := signOrDigit_of_mem member
      simp [isPlain, numeral.ne '"' (by decide), numeral.ne '[' (by decide),
        numeral.ne ']' (by decide), numeral.ne '\x7b' (by decide), numeral.ne '\x7d' (by decide)]
  | text value => exact .textCharacters value
  | @list items each ih =>
      rw [characters, listCharacters_eq, depth, listDepth_eq]
      exact (Nests.separated characters depth items ih true).bracketed (.inl ⟨rfl, rfl⟩)
  | @object members each ih =>
      have parts : ∀ member ∈ members, Nests (memberText member) member.2.depth := by
        intro member among
        have colon : Nests [':'] 0 := .plain (by decide)
        have whole := (Nests.textCharacters member.1).append (colon.append (ih member among))
        rwa [Nat.zero_max, Nat.zero_max] at whole
      rw [characters, memberCharacters_eq, depth, memberDepth_eq]
      exact (Nests.separated memberText _ members parts true).bracketed (.inr ⟨rfl, rfl⟩)

/-- The compact text of a value is nested as deep as the value. -/
theorem nesting_compact {value : Json} (integral : value.Integral) :
    nesting value.compact = value.depth := by
  have scanned := nests_characters integral 0 0 (Nat.le_refl 0)
  have start : outside 0 0 = {} := rfl
  rw [nesting, compact, String.toList_ofList, ← start, scanned, outside, Nat.zero_add, Nat.zero_max]

end ParseView.Json
