import Mathlib.Data.Set.Basic
import Mathlib.Order.Bounds.Defs
import ParseView.Proofs.VocabularyLookups

/-! How long the tables of a `.tokens` file are, and which names are in them. No table is longer
than the greatest kind in it calls for, so the length of a file limits the room it can ask for. -/

namespace ParseView

open VocabularyEntry

namespace NameTable

def slots (vocabulary : Vocabulary) : NameTable → List (Option String)
  | symbolic => vocabulary.symbolic
  | literal => vocabulary.literal

theorem lookup_eq_nameIn_slots (vocabulary : Vocabulary) (table : NameTable) (kind : UInt32) :
    lookup vocabulary table kind = Vocabulary.nameIn (slots vocabulary table) kind := by
  cases table <;> rfl

def namedKinds (table : NameTable) (text : String) : Set UInt32 :=
  {kind | ∃ line ∈ Vocabulary.fileLines text, table.NamedIn kind line}

end NameTable

namespace Vocabulary

open NameTable

theorem length_enter (names : List (Option String)) (kind : Nat) (name : String) :
    (enter names kind name).length = max names.length (kind + 1) := by
  rw [enter, List.length_set, List.length_append, List.length_replicate]
  omega

theorem length_slots_add (vocabulary : Vocabulary) (entry : VocabularyEntry) (table : NameTable) :
    (slots (vocabulary.add entry) table).length =
      if ofName entry.name = table then max (slots vocabulary table).length (entry.kind.toNat + 1)
      else (slots vocabulary table).length := by
  cases table <;> by_cases quoted : isLiteral entry.name = true <;>
    simp [add, ofName, quoted, slots, length_enter]

theorem length_slots_foldl_add_le_iff (vocabulary : Vocabulary) (entries : List VocabularyEntry)
    (table : NameTable) (size : Nat) :
    (slots (entries.foldl add vocabulary) table).length ≤ size ↔
      (slots vocabulary table).length ≤ size ∧
        ∀ entry ∈ entries, ofName entry.name = table → entry.kind.toNat < size := by
  -- The tables built so far stay general: each entry may lengthen them before the rest follows.
  induction entries generalizing vocabulary with
  | nil => simp
  | cons entry rest ih =>
      rw [List.foldl_cons, ih, length_slots_add, List.forall_mem_cons, ← and_assoc]
      refine and_congr_left fun _ => ?_
      by_cases own : ofName entry.name = table
      · rw [if_pos own, Nat.max_le, Nat.succ_le_iff]
        simp [own]
      · simp [own]

structure Trimmed (name : List Char) : Prop where
  nonempty : name ≠ []
  start : ∀ first, name.head? = some first → isBlank first = false
  finish : ∀ last, name.getLast? = some last → isBlank last = false
  unbroken : '\n' ∉ name

theorem trimmed_of_declares {line name : List Char} {kind : UInt32} (unbroken : '\n' ∉ line)
    (declares : Declares line name kind) : Trimmed name := by
  obtain ⟨before, after, rfl, _, _, rfl, nonempty⟩ := (declares_iff _ _ _).mp declares
  refine ⟨nonempty, fun _ => isBlank_of_head?_trim, fun _ => isBlank_of_getLast?_trim, ?_⟩
  intro member
  exact unbroken (List.mem_append_left _ (mem_of_mem_trim member))

section Accepted

variable {text : String} {vocabulary : Vocabulary}
  (accepted : ofTokensFile text = .ok vocabulary) (table : NameTable)
include accepted

/-- A table is as long as the kinds with a name in it call for. -/
theorem length_slots_le_iff (size : Nat) :
    (slots vocabulary table).length ≤ size ↔
      ∀ kind ∈ table.namedKinds text, kind.toNat < size := by
  obtain ⟨entries, reads, _, rfl⟩ := (ofTokensFile_eq_ok_iff text vocabulary).mp accepted
  have empty : (slots {} table).length ≤ size := by cases table <;> exact Nat.zero_le size
  rw [length_slots_foldl_add_le_iff, and_iff_right empty]
  constructor
  · rintro small kind ⟨line, member, name, declares, holds⟩
    obtain ⟨entry, among, rfl, rfl⟩ := reads.exists_entry member declares
    exact small entry among ((holds_iff _ _).mp holds)
  · intro small entry among own
    obtain ⟨line, member, declares⟩ := reads.exists_line entry among
    exact small entry.kind ⟨line, member, entry.name, declares, (holds_iff _ _).mpr own⟩

theorem length_slots_le_entryCount : (slots vocabulary table).length ≤ entryCount text + 257 := by
  rw [length_slots_le_iff accepted]
  rintro kind ⟨line, member, name, declares, _⟩
  have every := (exists_ofTokensFile_iff text).mp ⟨vocabulary, accepted⟩
  obtain ⟨other, otherKind, again, fits⟩ := every line member declares.trim_ne_nil
  obtain ⟨_, rfl⟩ := declares.unique again
  exact Nat.lt_succ_of_le fits

theorem length_slots_le_size : (slots vocabulary table).length ≤ UInt32.size :=
  (length_slots_le_iff accepted table _).mpr fun kind _ => kind.toNat_lt_size

theorem length_slots_cases :
    table.namedKinds text = ∅ ∧ (slots vocabulary table).length = 0 ∨
      ∃ greatest, IsGreatest (table.namedKinds text) greatest ∧
        (slots vocabulary table).length = greatest.toNat + 1 := by
  have reaches := length_slots_le_iff accepted table
  cases size : (slots vocabulary table).length with
  | zero =>
      have below := (reaches 0).mp (Nat.le_of_eq size)
      refine .inl ⟨Set.eq_empty_iff_forall_notMem.mpr fun kind named => ?_, rfl⟩
      exact absurd (below kind named) (Nat.not_lt_zero _)
  | succ last =>
      have below := (reaches (last + 1)).mp (Nat.le_of_eq size)
      -- One slot less would be too few, so some kind needs the last one.
      have beyond : ¬∀ kind ∈ table.namedKinds text, kind.toNat < last := by
        rw [← reaches, size]
        omega
      simp only [not_forall, Nat.not_lt] at beyond
      obtain ⟨greatest, named, atLeast⟩ := beyond
      have same : greatest.toNat = last :=
        Nat.le_antisymm (Nat.le_of_lt_succ (below greatest named)) atLeast
      refine .inr ⟨greatest, ⟨named, fun kind other => ?_⟩, by rw [same]⟩
      rw [UInt32.le_iff_toNat_le, same]
      exact Nat.le_of_lt_succ (below kind other)

theorem isSome_of_getLast?_slots {slot : Option String}
    (ends : (slots vocabulary table).getLast? = some slot) : slot.isSome = true := by
  rcases length_slots_cases accepted table with ⟨_, empty⟩ | ⟨greatest, ⟨named, _⟩, size⟩
  · rw [List.length_eq_zero_iff.mp empty, List.getLast?_nil] at ends
    cases ends
  · obtain ⟨line, member, naming⟩ := named
    have known : lookup vocabulary table greatest ≠ none := fun missing =>
      (lookup_eq_none_iff accepted table greatest).mp missing line member naming
    rw [List.getLast?_eq_getElem?, size, Nat.add_sub_cancel] at ends
    rw [lookup_eq_nameIn_slots, nameIn, ends] at known
    exact Option.isSome_iff_ne_none.mpr known

theorem exists_lookup_of_mem_slots {name : String} (member : some name ∈ slots vocabulary table) :
    ∃ kind, lookup vocabulary table kind = some name := by
  obtain ⟨index, found⟩ := List.mem_iff_getElem?.mp member
  -- Names are looked up by kind, and only a place below `UInt32.size` is one.
  have inside : index < UInt32.size := by
    obtain ⟨below, _⟩ := List.getElem?_eq_some_iff.mp found
    exact Nat.lt_of_lt_of_le below (length_slots_le_size accepted table)
  refine ⟨UInt32.ofNat index, ?_⟩
  rw [lookup_eq_nameIn_slots, nameIn, UInt32.toNat_ofNat_of_lt' inside, found]
  rfl

theorem exists_line_of_mem_slots {name : String} (member : some name ∈ slots vocabulary table) :
    ∃ line ∈ fileLines text, ∃ kind, Declares line name.toList kind ∧ table.Holds name.toList := by
  obtain ⟨kind, known⟩ := exists_lookup_of_mem_slots accepted table member
  obtain ⟨earlier, line, later, parts, declares, holds, _⟩ :=
    (lookup_eq_some_iff accepted table kind name).mp known
  exact ⟨line, by simp [parts], kind, declares, holds⟩

end Accepted

/-- How long a table of a file is, and which names are in it. -/
structure TableLaws (text : String) (table : NameTable) (slots : List (Option String)) : Prop where
  bounded : slots.length ≤ entryCount text + 257
  sized : table.namedKinds text = ∅ ∧ slots.length = 0 ∨
    ∃ greatest, IsGreatest (table.namedKinds text) greatest ∧ slots.length = greatest.toNat + 1
  occupied : ∀ slot, slots.getLast? = some slot → slot.isSome = true
  trimmed : ∀ name, some name ∈ slots → Trimmed name.toList
  belongs : ∀ name, some name ∈ slots → table.Holds name.toList

/-- In whatever order the lines of a file stand, each of its tables ends with the greatest kind
that has a name in it, at most 256 past the number of entries, and holds trimmed names of its own
sort only. -/
theorem tables_ofTokensFile (text : String) (vocabulary : Vocabulary)
    (accepted : ofTokensFile text = .ok vocabulary) :
    TableLaws text .symbolic vocabulary.symbolic ∧
      TableLaws text .literal vocabulary.literal := by
  have laws (table : NameTable) : TableLaws text table (slots vocabulary table) := by
    refine ⟨length_slots_le_entryCount accepted table, length_slots_cases accepted table,
      fun _ => isSome_of_getLast?_slots accepted table, ?_, ?_⟩
    · intro name member
      obtain ⟨line, inFile, _, declares, _⟩ := exists_line_of_mem_slots accepted table member
      exact trimmed_of_declares (newline_notMem_of_mem_fileLines inFile) declares
    · intro name member
      obtain ⟨_, _, _, _, holds⟩ := exists_line_of_mem_slots accepted table member
      exact holds
  exact ⟨laws .symbolic, laws .literal⟩

theorem tables_ofTokensFile_far :
    let text := "'+'=2\r\n\nEOF = 259\n'++'=2"
    let symbolic := List.replicate 259 none ++ [some "EOF"]
    let literal := [none, none, some "'++'"]
    ofTokensFile text = .ok ⟨symbolic, literal⟩ ∧ symbolic.length = entryCount text + 257 ∧
      TableLaws text .symbolic symbolic ∧ TableLaws text .literal literal := by
  intro text symbolic literal
  have accepted : ofTokensFile text = .ok ⟨symbolic, literal⟩ := by
    unfold text symbolic literal
    decide +kernel
  have reached : symbolic.length = entryCount text + 257 := by
    unfold text symbolic
    decide +kernel
  exact ⟨accepted, reached, tables_ofTokensFile text _ accepted⟩

end Vocabulary

end ParseView
