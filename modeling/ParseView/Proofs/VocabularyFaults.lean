import ParseView.Proofs.VocabularyLines

/-! Which `.tokens` files are read, and which fault the others are rejected for. A line that
cannot be read counts before all kinds that are out of range. -/

namespace ParseView.Vocabulary

open VocabularyEntry

def fileLines (text : String) : List (List Char) :=
  text.toList.splitOn '\n'

def entryCount (text : String) : Nat :=
  (fileLines text).countP fun line => trim line ≠ []

def kindLimit (text : String) : Nat :=
  entryCount text + 256

def Readable (line : List Char) : Prop :=
  trim line ≠ [] → ∃ name kind, Declares line name kind

/-- The fault that a file is rejected for: that of the first line that cannot be read, and only
where there is no such line the first kind that is out of range. Lines are counted from 1. -/
inductive FirstFault (text : String) : VocabularyFault → Prop where
  | unreadable {earlier later : List (List Char)} {line : List Char} {fault : EntryFault} :
      fileLines text = earlier ++ line :: later → (∀ other ∈ earlier, Readable other) →
      trim line ≠ [] → Fails line fault → FirstFault text ⟨earlier.length + 1, fault⟩
  | outOfRange {earlier later : List (List Char)} {line name : List Char} {kind : UInt32} :
      fileLines text = earlier ++ line :: later → (∀ other ∈ fileLines text, Readable other) →
      (∀ other ∈ earlier, ∀ name kind, Declares other name kind → kind.toNat ≤ kindLimit text) →
      Declares line name kind → kindLimit text < kind.toNat →
      FirstFault text ⟨earlier.length + 1, .outOfRange kind.toNat (kindLimit text)⟩

theorem linesOf_ne_nil (characters : List Char) : linesOf characters ≠ [] := by
  unfold linesOf
  split <;> (try split) <;> simp

theorem linesOf_eq_splitOn (characters : List Char) :
    linesOf characters = characters.splitOn '\n' := by
  induction characters with
  | nil => simp [linesOf]
  | cons first rest ih =>
      rw [List.splitOn_cons_eq_if_modifyHead, ← ih]
      by_cases ends : first = '\n'
      · simp [ends, linesOf]
      · cases lines : linesOf rest with
        | nil => exact absurd lines (linesOf_ne_nil rest)
        | cons line others => simp [linesOf, ends, lines]

theorem newline_notMem_of_mem_linesOf {characters line : List Char}
    (member : line ∈ linesOf characters) : '\n' ∉ line := by
  fun_induction linesOf characters generalizing line with
  | case1 =>
      rw [List.mem_singleton.mp member]
      exact List.not_mem_nil
  | case2 rest ih =>
      rcases List.mem_cons.mp member with rfl | later
      · exact List.not_mem_nil
      · exact ih later
  | case3 _ rest _ none => exact absurd none (linesOf_ne_nil rest)
  | case4 first rest other line others lines ih =>
      rw [lines] at ih
      rcases List.mem_cons.mp member with rfl | later
      · rw [List.mem_cons, not_or]
        exact ⟨fun same => other same.symm, ih List.mem_cons_self⟩
      · exact ih (List.mem_cons_of_mem _ later)

theorem newline_notMem_of_mem_fileLines {text : String} {line : List Char}
    (member : line ∈ fileLines text) : '\n' ∉ line := by
  rw [fileLines, ← linesOf_eq_splitOn] at member
  exact newline_notMem_of_mem_linesOf member

inductive Reads : Nat → List (List Char) → List VocabularyEntry → Prop where
  | nil (number : Nat) : Reads number [] []
  | blank {number : Nat} {line : List Char} {rest : List (List Char)}
      {entries : List VocabularyEntry} :
      trim line = [] → Reads (number + 1) rest entries → Reads number (line :: rest) entries
  | entry {number : Nat} {line : List Char} {rest : List (List Char)} {entry : VocabularyEntry}
      {entries : List VocabularyEntry} :
      entry.line = number → Declares line entry.name entry.kind →
      Reads (number + 1) rest entries → Reads number (line :: rest) (entry :: entries)

def numbered (first : Nat) (lines : List (List Char)) : List (Nat × List Char) :=
  ((lines.map trim).zipIdx first).filterMap fun (line, number) =>
    if line.isEmpty then none else some (number, line)

theorem numbered_cons (first : Nat) (line : List Char) (rest : List (List Char)) :
    numbered first (line :: rest) =
      if trim line = [] then numbered (first + 1) rest
      else (first, trim line) :: numbered (first + 1) rest := by
  rw [numbered, List.map_cons, List.zipIdx_cons, List.filterMap_cons]
  by_cases blank : trim line = [] <;> simp [blank, numbered]

theorem readEntries_cons (number : Nat) (line : List Char) (rest : List (Nat × List Char)) :
    readEntries ((number, line) :: rest) =
      match ofLine number line with
      | .error fault => .error ⟨number, fault⟩
      | .ok entry => (readEntries rest).map (entry :: ·) := by
  rw [readEntries, List.mapM_cons]
  dsimp only
  cases ofLine number line with
  | error fault => rfl
  | ok entry =>
      change (readEntries rest >>= fun entries => pure (entry :: entries)) = _
      cases readEntries rest <;> rfl

theorem readEntries_eq_ok_iff (number : Nat) (lines : List (List Char))
    (entries : List VocabularyEntry) :
    readEntries (numbered number lines) = .ok entries ↔ Reads number lines entries := by
  induction lines generalizing number entries with
  | nil =>
      constructor
      · rintro ⟨⟩
        exact .nil number
      · rintro ⟨⟩
        rfl
  | cons line rest ih =>
      rw [numbered_cons]
      by_cases blank : trim line = []
      · rw [if_pos blank, ih]
        constructor
        · exact .blank blank
        · rintro (_ | ⟨_, later⟩ | ⟨_, declares, _⟩)
          · exact later
          · exact absurd blank declares.trim_ne_nil
      · rw [if_neg blank, readEntries_cons]
        constructor
        · intro read
          split at read
          next => simp at read
          next entry found =>
            obtain ⟨same, declares⟩ := (ofLine_trim_eq_ok_iff number line entry).mp found
            cases later : readEntries (numbered (number + 1) rest) with
            | error fault => simp [later, Except.map] at read
            | ok others =>
                rw [later] at read
                cases read
                exact .entry same declares ((ih (number + 1) others).mp later)
        · rintro (_ | ⟨empty, _⟩ | ⟨same, declares, later⟩)
          · exact absurd empty blank
          · rw [(ofLine_trim_eq_ok_iff number line _).mpr ⟨same, declares⟩,
              (ih (number + 1) _).mpr later]
            rfl

theorem readEntries_cons_eq_error_iff {line : List Char} (readable : Readable line) (number : Nat)
    (rest : List (List Char)) (failure : VocabularyFault) :
    readEntries (numbered number (line :: rest)) = .error failure ↔
      readEntries (numbered (number + 1) rest) = .error failure := by
  rw [numbered_cons]
  by_cases blank : trim line = []
  · rw [if_pos blank]
  · obtain ⟨name, kind, declares⟩ := readable blank
    have read := (ofLine_trim_eq_ok_iff number line ⟨number, name, kind⟩).mpr ⟨rfl, declares⟩
    rw [if_neg blank, readEntries_cons, read]
    cases readEntries (numbered (number + 1) rest) <;> simp [Except.map]

theorem readEntries_eq_error_iff (number : Nat) (lines : List (List Char))
    (failure : VocabularyFault) :
    readEntries (numbered number lines) = .error failure ↔
      ∃ earlier line later fault, lines = earlier ++ line :: later ∧
        (∀ other ∈ earlier, Readable other) ∧ trim line ≠ [] ∧ Fails line fault ∧
        failure = ⟨number + earlier.length, fault⟩ := by
  constructor
  · intro stopped
    -- A line that can be read only moves the number on; the first other one settles the fault.
    induction lines generalizing number with
    | nil => cases stopped
    | cons line rest ih =>
        by_cases readable : Readable line
        · rw [readEntries_cons_eq_error_iff readable] at stopped
          obtain ⟨earlier, other, later, fault, rfl, before, solid, fails, rfl⟩ := ih _ stopped
          refine ⟨line :: earlier, other, later, fault, rfl, ?_, solid, fails, ?_⟩
          · simpa [readable] using before
          · simp only [List.length_cons, Nat.add_assoc, Nat.add_comm 1]
        · rw [Readable, Classical.not_imp] at readable
          obtain ⟨solid, undeclared⟩ := readable
          obtain ⟨fault, fails⟩ := (exists_fails_iff line).mpr undeclared
          rw [numbered_cons, if_neg solid, readEntries_cons,
            (ofLine_trim_eq_error_iff number line fault).mpr fails] at stopped
          cases stopped
          exact ⟨[], line, rest, fault, rfl, by simp, solid, fails, rfl⟩
  · rintro ⟨earlier, line, later, fault, rfl, readable, solid, fails, rfl⟩
    induction earlier generalizing number with
    | nil =>
        rw [List.nil_append, numbered_cons, if_neg solid, readEntries_cons,
          (ofLine_trim_eq_error_iff number line fault).mpr fails]
        rfl
    | cons other earlier ih =>
        rw [List.cons_append, readEntries_cons_eq_error_iff (readable other (by simp)),
          ih _ fun line member => readable line (by simp [member])]
        simp only [List.length_cons, Nat.add_assoc, Nat.add_comm 1]

namespace Reads

variable {number : Nat} {lines first second : List (List Char)}
  {entries : List VocabularyEntry}

theorem of_readable (number : Nat) (readable : ∀ line ∈ lines, Readable line) :
    ∃ entries, Reads number lines entries := by
  induction lines generalizing number with
  | nil => exact ⟨[], .nil number⟩
  | cons line rest ih =>
      obtain ⟨entries, later⟩ :=
        ih (number + 1) fun other member => readable other (by simp [member])
      by_cases blank : trim line = []
      · exact ⟨entries, .blank blank later⟩
      · obtain ⟨name, kind, declares⟩ := readable line (by simp) blank
        exact ⟨⟨number, name, kind⟩ :: entries, .entry rfl declares later⟩

theorem readable (reads : Reads number lines entries) : ∀ line ∈ lines, Readable line := by
  induction reads with
  | nil => simp
  | blank empty _ ih => simpa [Readable, empty] using ih
  | entry _ declares _ ih =>
      simp only [List.mem_cons, forall_eq_or_imp]
      exact ⟨fun _ => ⟨_, _, declares⟩, ih⟩

theorem length_eq (reads : Reads number lines entries) :
    entries.length = lines.countP fun line => trim line ≠ [] := by
  induction reads with
  | nil => rfl
  | blank empty _ ih => simpa [empty] using ih
  | entry _ declares _ ih => simp [declares.trim_ne_nil, ih]

theorem exists_line (reads : Reads number lines entries) :
    ∀ entry ∈ entries, ∃ line ∈ lines, Declares line entry.name entry.kind := by
  induction reads with
  | nil => simp
  | blank _ _ ih =>
      intro entry member
      obtain ⟨line, among, declares⟩ := ih entry member
      exact ⟨line, List.mem_cons_of_mem _ among, declares⟩
  | entry _ declares _ ih =>
      intro other member
      rcases List.mem_cons.mp member with rfl | later
      · exact ⟨_, List.mem_cons_self, declares⟩
      · obtain ⟨line, among, declares⟩ := ih other later
        exact ⟨line, List.mem_cons_of_mem _ among, declares⟩

theorem exists_entry (reads : Reads number lines entries) {line name : List Char} {kind : UInt32}
    (member : line ∈ lines) (declares : Declares line name kind) :
    ∃ entry ∈ entries, entry.name = name ∧ entry.kind = kind := by
  induction reads with
  | nil => simp at member
  | blank empty _ ih =>
      rcases List.mem_cons.mp member with rfl | later
      · exact absurd empty declares.trim_ne_nil
      · exact ih later
  | entry _ own _ ih =>
      rcases List.mem_cons.mp member with rfl | later
      · exact ⟨_, List.mem_cons_self, own.unique declares⟩
      · obtain ⟨entry, among, same⟩ := ih later
        exact ⟨entry, List.mem_cons_of_mem _ among, same⟩

theorem of_append (reads : Reads number (first ++ second) entries) :
    ∃ front back, entries = front ++ back ∧ Reads number first front ∧
      Reads (number + first.length) second back := by
  induction first generalizing number entries with
  | nil => exact ⟨[], entries, rfl, .nil number, reads⟩
  | cons line first ih =>
      cases reads with
      | blank empty reads =>
          obtain ⟨front, back, rfl, before, after⟩ := ih reads
          rw [Nat.add_assoc, Nat.add_comm 1] at after
          exact ⟨front, back, rfl, .blank empty before, after⟩
      | entry same declares reads =>
          obtain ⟨front, back, rfl, before, after⟩ := ih reads
          rw [Nat.add_assoc, Nat.add_comm 1] at after
          exact ⟨_ :: front, back, rfl, .entry same declares before, after⟩

theorem of_append_cons {front back : List VocabularyEntry} {entry : VocabularyEntry}
    (reads : Reads number lines (front ++ entry :: back)) :
    ∃ earlier line later, lines = earlier ++ line :: later ∧ Reads number earlier front ∧
      entry.line = number + earlier.length ∧ Declares line entry.name entry.kind ∧
      Reads (number + earlier.length + 1) later back := by
  generalize held : front ++ entry :: back = entries at reads
  induction reads generalizing front with
  | nil => simp at held
  | blank empty _ ih =>
      obtain ⟨earlier, found, later, rfl, before, rest⟩ := ih held
      rw [Nat.add_assoc _ 1, Nat.add_comm 1] at rest
      exact ⟨_ :: earlier, found, later, rfl, .blank empty before, rest⟩
  | entry own said after ih =>
      cases front with
      | nil =>
          cases held
          exact ⟨[], _, _, rfl, .nil _, own, said, after⟩
      | cons other front =>
          cases held
          obtain ⟨earlier, found, later, rfl, before, rest⟩ := ih rfl
          rw [Nat.add_assoc _ 1, Nat.add_comm 1] at rest
          exact ⟨_ :: earlier, found, later, rfl, .entry own said before, rest⟩

end Reads

theorem foldlM_addWithin (limit : Nat) (vocabulary : Vocabulary)
    (entries : List VocabularyEntry) :
    entries.foldlM (addWithin limit) vocabulary =
      match entries.find? fun entry => limit < entry.kind.toNat with
      | some entry => .error ⟨entry.line, .outOfRange entry.kind.toNat limit⟩
      | none => .ok (entries.foldl add vocabulary) := by
  induction entries generalizing vocabulary with
  | nil => rfl
  | cons entry rest ih =>
      rw [List.foldlM_cons, addWithin, List.find?_cons]
      by_cases fits : entry.kind.toNat ≤ limit
      · simp only [fits, ↓reduceIte, Nat.not_lt.mpr fits, decide_false]
        exact ih (vocabulary.add entry)
      · simp only [fits, ↓reduceIte, Nat.lt_of_not_le fits, decide_true]
        rfl

theorem ofTokensFile_eq (text : String) :
    ofTokensFile text =
      match readEntries (numbered 1 (fileLines text)) with
      | .error failure => .error failure
      | .ok entries => entries.foldlM (addWithin (entries.length + 256)) {} := by
  rw [ofTokensFile, entryLines, linesOf_eq_splitOn]
  change (readEntries (numbered 1 (fileLines text)) >>= _) = _
  cases readEntries (numbered 1 (fileLines text)) <;> rfl

theorem ofTokensFile_of_reads {text : String} {entries : List VocabularyEntry}
    (reads : Reads 1 (fileLines text) entries) :
    ofTokensFile text =
      match entries.find? fun entry => kindLimit text < entry.kind.toNat with
      | some entry => .error ⟨entry.line, .outOfRange entry.kind.toNat (kindLimit text)⟩
      | none => .ok (entries.foldl add {}) := by
  rw [ofTokensFile_eq, (readEntries_eq_ok_iff _ _ _).mpr reads]
  dsimp only
  rw [foldlM_addWithin, reads.length_eq]
  rfl

theorem ofTokensFile_eq_ok_iff (text : String) (vocabulary : Vocabulary) :
    ofTokensFile text = .ok vocabulary ↔
      ∃ entries, Reads 1 (fileLines text) entries ∧
        (∀ entry ∈ entries, entry.kind.toNat ≤ kindLimit text) ∧
        vocabulary = entries.foldl add {} := by
  constructor
  · intro accepted
    cases found : readEntries (numbered 1 (fileLines text)) with
    | error failure => simp [ofTokensFile_eq, found] at accepted
    | ok entries =>
        have reads := (readEntries_eq_ok_iff _ _ _).mp found
        rw [ofTokensFile_of_reads reads] at accepted
        split at accepted
        next => simp at accepted
        next fits =>
          cases accepted
          exact ⟨entries, reads, by simpa using fits, rfl⟩
  · rintro ⟨entries, reads, fits, rfl⟩
    have none : (entries.find? fun entry => kindLimit text < entry.kind.toNat) = none := by
      simpa using fits
    rw [ofTokensFile_of_reads reads, none]

theorem exists_ofTokensFile_iff (text : String) :
    (∃ vocabulary, ofTokensFile text = .ok vocabulary) ↔
      ∀ line ∈ fileLines text, trim line ≠ [] →
        ∃ name kind, Declares line name kind ∧ kind.toNat ≤ kindLimit text := by
  simp only [ofTokensFile_eq_ok_iff]
  constructor
  · rintro ⟨_, entries, reads, fits, _⟩ line member solid
    obtain ⟨name, kind, declares⟩ := reads.readable line member solid
    obtain ⟨entry, among, _, rfl⟩ := reads.exists_entry member declares
    exact ⟨name, entry.kind, declares, fits entry among⟩
  · intro every
    have readable : ∀ line ∈ fileLines text, Readable line := by
      intro line member solid
      obtain ⟨name, kind, declares, _⟩ := every line member solid
      exact ⟨name, kind, declares⟩
    obtain ⟨entries, reads⟩ := Reads.of_readable 1 readable
    refine ⟨_, entries, reads, ?_, rfl⟩
    intro entry among
    obtain ⟨line, member, declares⟩ := reads.exists_line entry among
    obtain ⟨name, kind, again, fits⟩ := every line member declares.trim_ne_nil
    rwa [(declares.unique again).2]

theorem FirstFault.of_eq_error {text : String} {failure : VocabularyFault}
    (rejected : ofTokensFile text = .error failure) : FirstFault text failure := by
  cases found : readEntries (numbered 1 (fileLines text)) with
  | error first =>
      rw [ofTokensFile_eq, found] at rejected
      cases rejected
      obtain ⟨earlier, line, later, fault, parts, readable, solid, fails, rfl⟩ :=
        (readEntries_eq_error_iff _ _ _).mp found
      rw [Nat.add_comm]
      exact .unreadable parts readable solid fails
  | ok entries =>
      have reads := (readEntries_eq_ok_iff _ _ _).mp found
      rw [ofTokensFile_of_reads reads] at rejected
      split at rejected
      next entry beyond =>
        cases rejected
        obtain ⟨large, front, back, rfl, small⟩ := List.find?_eq_some_iff_append.mp beyond
        obtain ⟨earlier, line, later, parts, before, same, declares, _⟩ := reads.of_append_cons
        rw [same, Nat.add_comm]
        refine .outOfRange parts reads.readable ?_ declares (by simpa using large)
        intro other member name kind said
        obtain ⟨entry, among, _, rfl⟩ := before.exists_entry member said
        simpa using small entry among
      next => simp at rejected

theorem FirstFault.eq_error {text : String} {failure : VocabularyFault}
    (first : FirstFault text failure) : ofTokensFile text = .error failure := by
  cases first with
  | unreadable parts readable solid fails =>
      have found := (readEntries_eq_error_iff 1 _ _).mpr
        ⟨_, _, _, _, parts, readable, solid, fails, rfl⟩
      rw [ofTokensFile_eq, found, Nat.add_comm]
  | outOfRange parts readable small declares large =>
      obtain ⟨entries, reads⟩ := Reads.of_readable 1 readable
      have split := reads
      rw [parts] at split
      obtain ⟨front, back, rfl, before, after⟩ := split.of_append
      cases after with
      | blank empty _ => exact absurd empty declares.trim_ne_nil
      | @entry _ _ _ entry rest same own later =>
          obtain ⟨_, rfl⟩ := own.unique declares
          have fits : ∀ entry ∈ front, entry.kind.toNat ≤ kindLimit text := by
            intro entry among
            obtain ⟨line, member, said⟩ := before.exists_line entry among
            exact small line member _ _ said
          have found : ((front ++ entry :: rest).find?
              fun entry => kindLimit text < entry.kind.toNat) = some entry := by
            rw [List.find?_append, List.find?_eq_none.mpr (by simpa using fits)]
            simp [large]
          rw [ofTokensFile_of_reads reads, found]
          simp [same, Nat.add_comm]

/-- Reading a file succeeds exactly where no line is at fault, and else reports the fault that
comes first. -/
theorem ofTokensFile_outcome (text : String) :
    ((∃ vocabulary, ofTokensFile text = .ok vocabulary) ↔
        ∀ line ∈ fileLines text, trim line ≠ [] →
          ∃ name kind, Declares line name kind ∧ kind.toNat ≤ kindLimit text) ∧
      ∀ failure, ofTokensFile text = .error failure ↔ FirstFault text failure :=
  ⟨exists_ofTokensFile_iff text, fun _ => ⟨FirstFault.of_eq_error, FirstFault.eq_error⟩⟩

example : ofTokensFile "A=999\n\nPLUS" = .error ⟨3, .noEquals⟩ := by rfl

end ParseView.Vocabulary
