import Mathlib.Data.List.Forall2
import Mathlib.Data.List.Induction
import ParseView.Proofs.VocabularyFaults

/-! What a `.tokens` file that is read gives for each kind: the name in the last line that gives it
one, whatever blanks and lines for other kinds stand around it. -/

namespace ParseView

open VocabularyEntry

inductive NameTable where
  | symbolic
  | literal
deriving DecidableEq, Repr

namespace NameTable

def Quoted (name : List Char) : Prop :=
  2 ≤ (String.ofList name).utf8ByteSize ∧ name.head? = some '\'' ∧ name.getLast? = some '\''

def Holds : NameTable → List Char → Prop
  | literal, name => Quoted name
  | symbolic, name => ¬Quoted name

def NamedIn (table : NameTable) (kind : UInt32) (line : List Char) : Prop :=
  ∃ name, Declares line name kind ∧ table.Holds name

def lookup (vocabulary : Vocabulary) : NameTable → UInt32 → Option String
  | symbolic => vocabulary.symbolicName
  | literal => vocabulary.literalName

def ofName (name : List Char) : NameTable :=
  if isLiteral name then literal else symbolic

theorem isLiteral_iff (name : List Char) : isLiteral name = true ↔ Quoted name := by
  simp only [isLiteral, Quoted, Bool.and_eq_true, decide_eq_true_eq, beq_iff_eq, and_assoc]
  refine and_congr_left ?_
  rintro ⟨first, _⟩
  obtain ⟨rest, rfl⟩ := List.head?_eq_some_iff.mp first
  have apostrophe : '\''.utf8Size = 1 := rfl
  cases rest with
  | nil => exact iff_of_false (by decide) (by decide)
  | cons second rest =>
      have bytes := second.utf8Size_pos
      simp only [List.length_cons, String.ofList_cons, String.utf8ByteSize_append,
        String.utf8ByteSize_singleton, apostrophe]
      omega

theorem holds_iff (table : NameTable) (name : List Char) :
    table.Holds name ↔ ofName name = table := by
  rw [ofName]
  cases table <;> by_cases quoted : isLiteral name = true <;>
    simp [Holds, ← isLiteral_iff, quoted]

def entersInto (table : NameTable) (kind : UInt32) (entry : VocabularyEntry) : Bool :=
  entry.kind = kind ∧ ofName entry.name = table

theorem entersInto_iff (table : NameTable) (kind : UInt32) (entry : VocabularyEntry) :
    entersInto table kind entry = true ↔ entry.kind = kind ∧ table.Holds entry.name := by
  simp [entersInto, holds_iff]

theorem namedIn_iff (table : NameTable) (kind : UInt32) (line : List Char) :
    table.NamedIn kind line ↔
      (ofLine 0 (trim line)).toOption.any (entersInto table kind) = true := by
  constructor
  · rintro ⟨name, declares, holds⟩
    have read := (ofLine_trim_eq_ok_iff 0 line ⟨0, name, kind⟩).mpr ⟨rfl, declares⟩
    simpa [read, Except.toOption] using (entersInto_iff table kind _).mpr ⟨rfl, holds⟩
  · intro enters
    cases read : ofLine 0 (trim line) with
    | error fault => simp [read, Except.toOption] at enters
    | ok entry =>
        rw [read] at enters
        obtain ⟨rfl, holds⟩ := (entersInto_iff table kind entry).mp enters
        exact ⟨entry.name, ((ofLine_trim_eq_ok_iff 0 line entry).mp read).2, holds⟩

instance (table : NameTable) (kind : UInt32) (line : List Char) :
    Decidable (table.NamedIn kind line) :=
  decidable_of_iff _ (namedIn_iff table kind line).symm

end NameTable

namespace Vocabulary

open NameTable

theorem nameIn_enter (table : List (Option String)) (kind other : UInt32) (name : String) :
    nameIn (enter table kind.toNat name) other =
      if kind = other then some name else nameIn table other := by
  have room : kind.toNat <
      (table ++ List.replicate (kind.toNat + 1 - table.length) none).length := by
    simp only [List.length_append, List.length_replicate]
    omega
  by_cases same : kind = other
  · subst same
    rw [nameIn, enter, List.getElem?_set_self room]
    simp
  · have apart : kind.toNat ≠ other.toNat := fun equal => same (UInt32.toNat_inj.mp equal)
    rw [nameIn, enter, List.getElem?_set_ne apart, if_neg same, nameIn, List.getElem?_append]
    split
    next => rfl
    next beyond =>
      rw [List.getElem?_replicate, List.getElem?_eq_none (by omega)]
      split <;> rfl

theorem lookup_add (vocabulary : Vocabulary) (entry : VocabularyEntry) (table : NameTable)
    (kind : UInt32) :
    lookup (vocabulary.add entry) table kind =
      if ofName entry.name = table ∧ entry.kind = kind then some (String.ofList entry.name)
      else lookup vocabulary table kind := by
  cases table <;> by_cases quoted : isLiteral entry.name = true <;>
    simp [add, ofName, quoted, lookup, symbolicName, literalName, nameIn_enter]

theorem lookup_foldl_add (entries : List VocabularyEntry) (table : NameTable) (kind : UInt32) :
    lookup (entries.foldl add {}) table kind =
      (entries.reverse.find? (entersInto table kind)).map
        fun entry => String.ofList entry.name := by
  induction entries using List.reverseRecOn with
  | nil => cases table <;> rfl
  | append_singleton entries entry ih =>
      rw [List.foldl_append, List.foldl_cons, List.foldl_nil, lookup_add, List.reverse_append,
        List.reverse_singleton, List.singleton_append, List.find?_cons, ih, entersInto]
      by_cases same : entry.kind = kind ∧ ofName entry.name = table <;> simp [same, and_comm]

/-- The name in the last line of the file that gives the kind a name of the table. -/
def LastName (text : String) (table : NameTable) (kind : UInt32) (name : List Char) : Prop :=
  ∃ earlier line later, fileLines text = earlier ++ line :: later ∧ Declares line name kind ∧
    table.Holds name ∧ ∀ other ∈ later, ¬table.NamedIn kind other

section Accepted

variable {text : String} {vocabulary : Vocabulary}
  (accepted : ofTokensFile text = .ok vocabulary)
include accepted

theorem lookup_eq_some_iff (table : NameTable) (kind : UInt32) (name : String) :
    lookup vocabulary table kind = some name ↔ LastName text table kind name.toList := by
  obtain ⟨entries, reads, _, rfl⟩ := (ofTokensFile_eq_ok_iff text vocabulary).mp accepted
  rw [lookup_foldl_add, Option.map_eq_some_iff]
  constructor
  · rintro ⟨entry, found, rfl⟩
    obtain ⟨enters, after, before, parts, others⟩ := List.find?_eq_some_iff_append.mp found
    obtain ⟨rfl, holds⟩ := (entersInto_iff table kind entry).mp enters
    obtain rfl : entries = before.reverse ++ entry :: after.reverse := by
      simpa using congrArg List.reverse parts
    obtain ⟨earlier, line, later, parts, _, _, declares, rest⟩ := reads.of_append_cons
    refine ⟨earlier, line, later, parts, by simpa using declares, by simpa using holds, ?_⟩
    rintro other member ⟨name, said, belongs⟩
    obtain ⟨again, among, rfl, same⟩ := rest.exists_entry member said
    have enters := (entersInto_iff table entry.kind again).mpr ⟨same, belongs⟩
    simpa [enters] using others again (List.mem_reverse.mp among)
  · rintro ⟨earlier, line, later, parts, declares, holds, others⟩
    rw [parts] at reads
    obtain ⟨front, back, rfl, _, rest⟩ := reads.of_append
    cases rest with
    | blank empty _ => exact absurd empty declares.trim_ne_nil
    | @entry _ _ _ entry rest _ own after =>
        obtain ⟨same, rfl⟩ := own.unique declares
        refine ⟨entry, ?_, by simp [same]⟩
        rw [List.find?_eq_some_iff_append]
        refine ⟨(entersInto_iff table _ entry).mpr ⟨rfl, same ▸ holds⟩, rest.reverse,
          front.reverse, by simp, ?_⟩
        intro other among
        obtain ⟨line, member, said⟩ := after.exists_line other (List.mem_reverse.mp among)
        rw [Bool.not_eq_true', Bool.eq_false_iff, ne_eq, entersInto_iff]
        rintro ⟨equal, belongs⟩
        exact others line member ⟨other.name, equal ▸ said, belongs⟩

theorem lookup_eq_none_iff (table : NameTable) (kind : UInt32) :
    lookup vocabulary table kind = none ↔
      ∀ line ∈ fileLines text, ¬table.NamedIn kind line := by
  obtain ⟨entries, reads, _, rfl⟩ := (ofTokensFile_eq_ok_iff text vocabulary).mp accepted
  rw [lookup_foldl_add, Option.map_eq_none_iff, List.find?_eq_none]
  constructor
  · rintro none line member ⟨name, said, belongs⟩
    obtain ⟨entry, among, rfl, same⟩ := reads.exists_entry member said
    exact none entry (List.mem_reverse.mpr among) ((entersInto_iff _ _ _).mpr ⟨same, belongs⟩)
  · intro unnamed entry among enters
    obtain ⟨rfl, belongs⟩ := (entersInto_iff _ _ _).mp enters
    obtain ⟨line, member, said⟩ := reads.exists_line entry (List.mem_reverse.mp among)
    exact unnamed line member ⟨entry.name, said, belongs⟩

end Accepted

section WholeNames

theorem isBlank_of_isDigit {character : Char} (digit : character.isDigit = true) :
    isBlank character = false := by
  simp only [Char.isDigit, Bool.and_eq_true, decide_eq_true_eq, ge_iff_le,
    UInt32.le_iff_toNat_le] at digit
  have lower : 48 ≤ character.toNat := digit.1
  have upper : character.toNat ≤ 57 := digit.2
  simp [isBlank]
  omega

theorem digit_or_sign_of_spellsKind {text : List Char} {kind : UInt32}
    (spelled : SpellsKind text kind) :
    ∀ character ∈ text, character.isDigit = true ∨ character = '+' := by
  obtain ⟨digits, rfl | rfl, _, numbers, _⟩ := spelled
  · exact fun character member => .inl (numbers character member)
  · intro character member
    rcases List.mem_cons.mp member with rfl | later
    · exact .inr rfl
    · exact .inl (numbers character later)

theorem trimStart_of_solid {text : List Char}
    (solid : ∀ character ∈ text, isBlank character = false) : trimStart text = text := by
  cases text with
  | nil => rfl
  | cons first rest => simp [trimStart, solid first (by simp)]

theorem trimEnd_of_solid {text : List Char}
    (solid : ∀ character ∈ text, isBlank character = false) : trimEnd text = text := by
  rw [trimEnd, trimStart_of_solid (by simpa using solid), List.reverse_reverse]

theorem declares_written {name spelled : List Char} {kind : UInt32} (trimmed : trim name = name)
    (nonempty : name ≠ []) (writes : SpellsKind spelled kind) :
    Declares (name ++ '=' :: spelled) name kind := by
  have characters := digit_or_sign_of_spellsKind writes
  have solid : ∀ character ∈ spelled, isBlank character = false := by
    intro character member
    rcases characters character member with digit | rfl
    · exact isBlank_of_isDigit digit
    · decide
  have last : '=' ∉ spelled := by
    intro member
    rcases characters '=' member with digit | sign
    · exact absurd digit (by decide)
    · exact absurd sign (by decide)
  have tight : trim spelled = spelled := by
    rw [trim, trimStart_of_solid solid, trimEnd_of_solid solid]
  exact (declares_iff _ _ _).mpr
    ⟨name, spelled, rfl, last, tight.symm ▸ writes, trimmed.symm, nonempty⟩

end WholeNames

section Blanks

def entryTexts (text : String) : List (List Char) :=
  (fileLines text).filter fun line => trim line ≠ []

/-- Two lines of which the parts before and after the last equals sign differ at most in the
blanks around them. -/
def SameEntry (line other : List Char) : Prop :=
  ∃ before after front back, line = before ++ '=' :: after ∧ '=' ∉ after ∧
    other = front ++ '=' :: back ∧ '=' ∉ back ∧ trim before = trim front ∧ trim after = trim back

def withCarriageReturns (text : String) : String :=
  String.ofList (text.toList.flatMap fun character =>
    if character = '\n' then ['\r', '\n'] else [character])

theorem SameEntry.declares {line other name : List Char} {kind : UInt32}
    (same : SameEntry line other) (declares : Declares line name kind) :
    Declares other name kind := by
  obtain ⟨before, after, front, back, rfl, last, rfl, final, sameName, sameKind⟩ := same
  obtain ⟨start, rest, again, apart, spelled, named, nonempty⟩ := (declares_iff _ _ _).mp declares
  obtain ⟨rfl, rfl⟩ := parts_unique again last apart
  exact (declares_iff _ _ _).mpr
    ⟨front, back, rfl, final, sameKind ▸ spelled, named.trans sameName, nonempty⟩

def nameAndKind (entry : VocabularyEntry) : List Char × UInt32 :=
  (entry.name, entry.kind)

def DeclaresPair (line : List Char) (said : List Char × UInt32) : Prop :=
  Declares line said.1 said.2

theorem foldl_add_congr {entries others : List VocabularyEntry}
    (same : entries.map nameAndKind = others.map nameAndKind) (vocabulary : Vocabulary) :
    entries.foldl add vocabulary = others.foldl add vocabulary := by
  have unnumbered (entries : List VocabularyEntry) : entries.foldl add vocabulary =
      (entries.map nameAndKind).foldl (fun built said => built.add ⟨0, said.1, said.2⟩)
        vocabulary := by
    rw [List.foldl_map]
    rfl
  rw [unnumbered, same, ← unnumbered]

theorem Reads.forall₂ {number : Nat} {lines : List (List Char)} {entries : List VocabularyEntry}
    (reads : Reads number lines entries) :
    List.Forall₂ DeclaresPair (lines.filter fun line => trim line ≠ [])
      (entries.map nameAndKind) := by
  induction reads with
  | nil => exact .nil
  | blank empty _ ih => simpa [empty] using ih
  | entry _ declares _ ih =>
      rw [List.filter_cons_of_pos (by simpa using declares.trim_ne_nil)]
      exact .cons declares ih

theorem forall₂_declares_of_same {lines others : List (List Char)}
    {said : List (List Char × UInt32)} (same : List.Forall₂ SameEntry lines others)
    (declared : List.Forall₂ DeclaresPair lines said) :
    List.Forall₂ DeclaresPair others said := by
  induction same generalizing said with
  | nil => simpa using declared
  | cons here _ ih =>
      cases declared with
      | cons declares later => exact .cons (here.declares declares) (ih later)

theorem rightUnique_declaresPair : Relator.RightUnique DeclaresPair := by
  intro line said again declares other
  have same := declares.unique other
  exact Prod.ext same.1 same.2

theorem ofTokensFile_of_same {text other : String} {vocabulary : Vocabulary}
    (accepted : ofTokensFile text = .ok vocabulary)
    (same : List.Forall₂ SameEntry (entryTexts text) (entryTexts other)) :
    ofTokensFile other = .ok vocabulary := by
  obtain ⟨entries, reads, fits, rfl⟩ := (ofTokensFile_eq_ok_iff text vocabulary).mp accepted
  have said := forall₂_declares_of_same same reads.forall₂
  have both : List.Forall₂ (fun line said =>
      (∃ name kind, Declares line name kind) ∧ DeclaresPair line said) (entryTexts other)
      (entries.map nameAndKind) :=
    said.imp fun line pair declares => ⟨⟨pair.1, pair.2, declares⟩, declares⟩
  have readable : ∀ line ∈ fileLines other, Readable line := by
    intro line member solid
    exact ((List.forall₂_and_left _ _).mp both).1 line
      (List.mem_filter.mpr ⟨member, by simpa using solid⟩)
  have limit : kindLimit other = kindLimit text := by
    rw [kindLimit, kindLimit, entryCount, entryCount, List.countP_eq_length_filter,
      List.countP_eq_length_filter]
    exact congrArg (· + 256) same.length_eq.symm
  obtain ⟨others, again⟩ := Reads.of_readable 1 readable
  have equal := rightUnique_declaresPair.forall₂ said again.forall₂
  refine (ofTokensFile_eq_ok_iff other _).mpr ⟨others, again, ?_, foldl_add_congr equal {}⟩
  have inRange : ∀ pair ∈ entries.map nameAndKind, pair.2.toNat ≤ kindLimit text :=
    List.forall_mem_map.mpr fits
  rw [equal, List.forall_mem_map] at inRange
  exact limit ▸ inRange

end Blanks

section CarriageReturns

theorem ofTokensFile_congr {text other : String}
    (same : (fileLines text).map trim = (fileLines other).map trim) :
    ofTokensFile text = ofTokensFile other := by
  rw [ofTokensFile_eq, ofTokensFile_eq, numbered, numbered, same]

theorem forall₂_splitOn_carriageReturns (characters : List Char) :
    List.Forall₂ (fun line other => other = line ∨ other = line ++ ['\r'])
      (characters.splitOn '\n')
      ((characters.flatMap fun character =>
        if character = '\n' then ['\r', '\n'] else [character]).splitOn '\n') := by
  induction characters with
  | nil => simp
  | cons first rest ih =>
      rw [List.flatMap_cons]
      by_cases ends : first = '\n'
      · subst ends
        simpa [List.splitOn_cons_eq_if_modifyHead] using ih
      · rw [if_neg ends, List.singleton_append, List.splitOn_cons_eq_if_modifyHead,
          List.splitOn_cons_eq_if_modifyHead, if_neg (by simpa using ends),
          if_neg (by simpa using ends)]
        generalize rest.splitOn '\n' = lines at ih ⊢
        generalize (rest.flatMap _).splitOn '\n' = others at ih ⊢
        cases ih with
        | nil => exact .nil
        | cons here later => exact .cons (by simpa using here) later

theorem ofTokensFile_withCarriageReturns (text : String) :
    ofTokensFile (withCarriageReturns text) = ofTokensFile text := by
  have lines := forall₂_splitOn_carriageReturns text.toList
  symm
  apply ofTokensFile_congr
  rw [← List.forall₂_eq_eq_eq, List.forall₂_map_left_iff, List.forall₂_map_right_iff]
  rw [fileLines, fileLines, withCarriageReturns, String.toList_ofList]
  refine lines.imp ?_
  rintro line other (rfl | rfl)
  · rfl
  · have nothing : ∀ character ∈ ([] : List Char), isBlank character := by simp
    have blank : ∀ character ∈ ['\r'], isBlank character := by simp [isBlank]
    exact (trim_surrounded line nothing blank).symm

end CarriageReturns

section Order

/-- The lines of the other file are those of this one, in an order that keeps any two lines with
names of one table for one kind as they were. -/
def Reordered (text other : String) : Prop :=
  (fileLines other).Perm (fileLines text) ∧ ∀ (table : NameTable) (kind : UInt32),
    (fileLines other).filter (fun line => table.NamedIn kind line) =
      (fileLines text).filter (fun line => table.NamedIn kind line)

theorem lastName_iff (text : String) (table : NameTable) (kind : UInt32) (name : List Char) :
    LastName text table kind name ↔ ∃ line,
      ((fileLines text).filter fun line => table.NamedIn kind line).getLast? = some line ∧
        Declares line name kind ∧ table.Holds name := by
  constructor
  · rintro ⟨earlier, line, later, parts, declares, holds, others⟩
    refine ⟨line, ?_, declares, holds⟩
    have none : later.filter (fun line => table.NamedIn kind line) = [] := by
      simpa using others
    have here : table.NamedIn kind line := ⟨name, declares, holds⟩
    rw [parts, List.filter_append, List.filter_cons_of_pos (by simpa using here), none]
    simp
  · rintro ⟨line, found, declares, holds⟩
    rw [List.getLast?_filter, List.find?_eq_some_iff_append] at found
    obtain ⟨_, after, before, parts, others⟩ := found
    refine ⟨before.reverse, line, after.reverse, ?_, declares, holds, ?_⟩
    · simpa using congrArg List.reverse parts
    · simpa using others

theorem exists_ofTokensFile_of_reordered {text other : String} {vocabulary : Vocabulary}
    (accepted : ofTokensFile text = .ok vocabulary) (order : Reordered text other) :
    ∃ rearranged, ofTokensFile other = .ok rearranged ∧
      lookup rearranged = lookup vocabulary := by
  have limit : kindLimit other = kindLimit text := by
    rw [kindLimit, kindLimit, entryCount, entryCount, order.1.countP_eq]
  have every := (exists_ofTokensFile_iff text).mp ⟨vocabulary, accepted⟩
  obtain ⟨rearranged, again⟩ := (exists_ofTokensFile_iff other).mpr fun line member =>
    limit ▸ every line (order.1.mem_iff.mp member)
  refine ⟨rearranged, again, ?_⟩
  funext table kind
  apply Option.ext
  intro name
  rw [lookup_eq_some_iff again, lookup_eq_some_iff accepted,
    lastName_iff, lastName_iff, order.2 table kind]

end Order

/-- What a file that is read gives for every kind. -/
structure LookupLaws (text : String) (vocabulary : Vocabulary) : Prop where
  symbolic : ∀ kind name, vocabulary.symbolicName kind = some name ↔
    LastName text .symbolic kind name.toList
  noSymbolic : ∀ kind, vocabulary.symbolicName kind = none ↔
    ∀ line ∈ fileLines text, ¬NameTable.symbolic.NamedIn kind line
  literal : ∀ kind name, vocabulary.literalName kind = some name ↔
    LastName text .literal kind name.toList
  noLiteral : ∀ kind, vocabulary.literalName kind = none ↔
    ∀ line ∈ fileLines text, ¬NameTable.literal.NamedIn kind line
  shownSymbolic : ∀ kind name, LastName text .symbolic kind name.toList →
    vocabulary.displayName kind = name
  shownLiteral : ∀ kind name, (∀ line ∈ fileLines text, ¬NameTable.symbolic.NamedIn kind line) →
    LastName text .literal kind name.toList → vocabulary.displayName kind = name
  shownNumber : ∀ kind, (∀ line ∈ fileLines text, ∀ table : NameTable, ¬table.NamedIn kind line) →
    vocabulary.displayName kind = String.ofList (Nat.toDigits 10 kind.toNat)
  hasLiteral : ∀ kind, vocabulary.hasLiteral kind = true ↔
    ∃ line ∈ fileLines text, NameTable.literal.NamedIn kind line
  wholeName : ∀ name spelled kind, trim name = name → name ≠ [] → SpellsKind spelled kind →
    Declares (name ++ '=' :: spelled) name kind
  blanks : ∀ other, List.Forall₂ SameEntry (entryTexts text) (entryTexts other) →
    ofTokensFile other = .ok vocabulary
  carriageReturns : ofTokensFile (withCarriageReturns text) = .ok vocabulary
  reordered : ∀ other, Reordered text other → ∃ rearranged, ofTokensFile other = .ok rearranged ∧
    rearranged.symbolicName = vocabulary.symbolicName ∧
    rearranged.literalName = vocabulary.literalName ∧
    rearranged.displayName = vocabulary.displayName ∧
    rearranged.hasLiteral = vocabulary.hasLiteral

theorem lookups_ofTokensFile (text : String) (vocabulary : Vocabulary)
    (accepted : ofTokensFile text = .ok vocabulary) : LookupLaws text vocabulary := by
  have some_iff := lookup_eq_some_iff accepted
  have none_iff := lookup_eq_none_iff accepted
  refine ⟨some_iff .symbolic, none_iff .symbolic, some_iff .literal, none_iff .literal,
    ?_, ?_, ?_, ?_, ?_, ?_, ?_, ?_⟩
  · intro kind name last
    have found : vocabulary.symbolicName kind = some name := (some_iff .symbolic kind name).mpr last
    rw [displayName, found]
  · intro kind name unnamed last
    have missing : vocabulary.symbolicName kind = none := (none_iff .symbolic kind).mpr unnamed
    have found : vocabulary.literalName kind = some name := (some_iff .literal kind name).mpr last
    rw [displayName, missing, found]
  · intro kind unnamed
    have missing (table : NameTable) : lookup vocabulary table kind = none :=
      (none_iff table kind).mpr fun line member => unnamed line member table
    have symbolic : vocabulary.symbolicName kind = none := missing .symbolic
    have literal : vocabulary.literalName kind = none := missing .literal
    rw [displayName, symbolic, literal]
    rfl
  · intro kind
    have missing : vocabulary.literalName kind = none ↔ _ := none_iff .literal kind
    rw [hasLiteral, Option.isSome_iff_ne_none, ne_eq, missing]
    simp
  · intro name spelled kind trimmed nonempty writes
    exact declares_written trimmed nonempty writes
  · exact fun other same => ofTokensFile_of_same accepted same
  · rw [ofTokensFile_withCarriageReturns, accepted]
  · intro other order
    obtain ⟨rearranged, again, same⟩ := exists_ofTokensFile_of_reordered accepted order
    have symbolic : rearranged.symbolicName = vocabulary.symbolicName := congrFun same .symbolic
    have literal : rearranged.literalName = vocabulary.literalName := congrFun same .literal
    refine ⟨rearranged, again, symbolic, literal, ?_, ?_⟩
    · funext kind
      rw [displayName, displayName, symbolic, literal]
    · funext kind
      rw [hasLiteral, hasLiteral, literal]

theorem lookups_ofTokensFile_equals_signs :
    ofTokensFile "PLUS=2\r\n\n '='= 3 \na=b =+2\n" =
        .ok ⟨[none, none, some "a=b"], [none, none, none, some "'='"]⟩ ∧
      LookupLaws "PLUS=2\r\n\n '='= 3 \na=b =+2\n"
        ⟨[none, none, some "a=b"], [none, none, none, some "'='"]⟩ := by
  have accepted : ofTokensFile "PLUS=2\r\n\n '='= 3 \na=b =+2\n" =
      .ok ⟨[none, none, some "a=b"], [none, none, none, some "'='"]⟩ := by rfl
  exact ⟨accepted, lookups_ofTokensFile _ _ accepted⟩

end Vocabulary

end ParseView
