import ParseView.Proofs.CommandLines

/-! Options that may stand before or after the name of the command: where they stand, and how often
the log option is given, makes no difference to the command that is asked for. -/

namespace ParseView.CommandLine

def isShared (argument : String) : Bool :=
  argument == "--ascii" || argument == "--verbose" ||
    match argument.toList with
    | '-' :: 'v' :: letters => letters.all (· == 'v')
    | _ => false

/-- The arguments without the options that are shared by all commands. After two dashes there are
no options. -/
def withoutShared : List String → List String
  | [] => []
  | argument :: rest =>
      if argument = "--" then argument :: rest
      else if isShared argument then withoutShared rest
      else argument :: withoutShared rest

def asksForAscii (arguments : List String) : Bool :=
  (arguments.takeWhile (· ≠ "--")).contains "--ascii"

def IsOwn (argument : String) : Prop :=
  argument ≠ "--" ∧ isShared argument = false

theorem IsPlain.isOwn {argument : String} (plain : IsPlain argument) : IsOwn argument := by
  rcases plain with rfl | unmarked
  · exact ⟨by decide, by decide⟩
  · refine ⟨?_, ?_⟩
    · rintro rfl
      exact unmarked rfl
    · simp only [isShared, Bool.or_eq_false_iff, beq_eq_false_iff_ne]
      refine ⟨⟨?_, ?_⟩, ?_⟩
      · rintro rfl
        exact unmarked rfl
      · rintro rfl
        exact unmarked rfl
      · split
        next shown => simp [shown] at unmarked
        next => rfl

namespace Spells

variable {item : Item} {word : String} {words : List String}

theorem isShared (spelled : Spells item [word]) (common : item.isShared) :
    isShared word = true ∧ (word == "--ascii") = (.ascii == item) := by
  cases spelled with
  | ascii | verbose => exact ⟨rfl, rfl⟩
  | letters count =>
      refine ⟨by simp [CommandLine.isShared, List.replicate_succ], ?_⟩
      simp [← String.toList_inj, List.replicate_succ]
  | _ => simp [Item.isShared] at common

theorem isOwn (spelled : Spells item words) (own : item.isShared = false) :
    ∀ word ∈ words, IsOwn word := by
  cases spelled with
  | ascii | verbose | letters => simp [Item.isShared] at own
  | path plain => simpa using plain.isOwn
  | inline policy =>
      have other : IsOwn "--inline" := ⟨by decide, by decide⟩
      simp [other, (isPlain_policySpelling policy).isOwn]
  | inlineJoined policy =>
      have other : IsOwn ("--inline=" ++ policySpelling policy) := by
        cases policy <;> exact ⟨by decide, by decide⟩
      simp [other]
  | positions =>
      have other : IsOwn "--positions" := ⟨by decide, by decide⟩
      simp [other]
  | vocabulary plain =>
      have other : IsOwn "--vocabulary" := ⟨by decide, by decide⟩
      simp [other, plain.isOwn]
  | vocabularyJoined path =>
      intro word member
      rw [List.mem_singleton.mp member]
      simp [IsOwn, CommandLine.isShared, ← String.toList_inj]

end Spells

theorem ne_of_isShared {argument : String} (common : isShared argument = true) :
    argument ≠ "--" := by
  rintro rfl
  simp [isShared] at common

theorem withoutShared_append {words : List String} (own : ∀ word ∈ words, IsOwn word)
    (later : List String) :
    withoutShared (words ++ later) = words ++ withoutShared later := by
  induction words with
  | nil => rfl
  | cons word words ih =>
      obtain ⟨continues, other⟩ := own word (by simp)
      rw [List.cons_append, withoutShared, if_neg continues, if_neg (by simp [other]),
        ih fun word among => own word (by simp [among]), List.cons_append]

theorem asksForAscii_append {words : List String} (own : ∀ word ∈ words, IsOwn word)
    (later : List String) :
    asksForAscii (words ++ later) = asksForAscii later := by
  induction words with
  | nil => rfl
  | cons word words ih =>
      obtain ⟨continues, other⟩ := own word (by simp)
      have different : "--ascii" ≠ word := by
        rintro rfl
        simp [isShared] at other
      rw [← ih fun word among => own word (by simp [among])]
      simp [asksForAscii, continues, different]

theorem withoutShared_cons {word : String} (common : isShared word = true) (later : List String) :
    withoutShared (word :: later) = withoutShared later := by
  rw [withoutShared, if_neg (ne_of_isShared common), if_pos common]

theorem asksForAscii_cons {word : String} (common : isShared word = true) (later : List String) :
    asksForAscii (word :: later) = (word == "--ascii" || asksForAscii later) := by
  simp [asksForAscii, ne_of_isShared common, eq_comm, Bool.beq_eq_decide_eq]

theorem Says.withoutShared {arguments : List String} {items : List Item}
    (said : Says arguments items) :
    Says (withoutShared arguments) (items.filter (!·.isShared)) ∧
      asksForAscii arguments = items.contains .ascii := by
  induction said with
  | nil => exact ⟨.nil, rfl⟩
  | @cons words later item items spelled _ ih =>
      obtain ⟨others, asked⟩ := ih
      cases common : item.isShared with
      | true =>
          -- A shared option is one word, so that dropping the word drops just this item.
          obtain ⟨word, rfl⟩ : ∃ word, words = [word] := by
            cases spelled <;> first | exact ⟨_, rfl⟩ | simp [Item.isShared] at common
          obtain ⟨shared, ascii⟩ := spelled.isShared common
          rw [List.singleton_append, withoutShared_cons shared, asksForAscii_cons shared, asked,
            ascii]
          exact ⟨by simpa [common] using others, rfl⟩
      | false =>
          have own := spelled.isOwn common
          rw [withoutShared_append own, asksForAscii_append own, asked]
          refine ⟨?_, ?_⟩
          · simpa [common] using Says.cons spelled others
          · cases item <;> first | rfl | simp [Item.isShared] at common
  | ended paths =>
      have own : (paths.map Item.path).filter (!·.isShared) = paths.map .path := by
        simp [Item.isShared]
      rw [own]
      exact ⟨.ended paths, by simp [asksForAscii]⟩

theorem withoutShared_before {before : List String} {shared : List Item}
    (all : List.Forall₂ (fun item word => item.isShared ∧ Spells item [word]) shared before)
    (after : List String) :
    withoutShared (before ++ after) = withoutShared after ∧
      asksForAscii (before ++ after) = (shared.contains .ascii || asksForAscii after) := by
  induction all with
  | nil => exact ⟨rfl, by simp⟩
  | cons said _ ih =>
      obtain ⟨common, ascii⟩ := said.2.isShared said.1
      rw [List.cons_append, withoutShared_cons common, asksForAscii_cons common, ascii, ih.1, ih.2,
        List.contains_cons, Bool.or_assoc]
      exact ⟨rfl, rfl⟩

theorem filterMap_filter_isShared {Value : Type} (value? : Item → Option Value)
    (own : ∀ item, item.isShared = true → value? item = none) (items : List Item) :
    (items.filter (!·.isShared)).filterMap value? = items.filterMap value? := by
  rw [List.filterMap_filter]
  congr 1
  funext item
  cases common : item.isShared with
  | true => simp [own item common]
  | false => rfl

theorem Selects.withoutShared {items : List Item} {name : CommandName} {command : Command}
    (selected : Selects items name command) :
    Selects (items.filter (!·.isShared)) name command := by
  have paths := filterMap_filter_isShared Item.path?
    (by rintro (_ | _ | _) <;> simp [Item.isShared]) items
  have policies := filterMap_filter_isShared Item.inline?
    (by rintro (_ | _ | _) <;> simp [Item.isShared]) items
  have vocabularies := filterMap_filter_isShared Item.vocabulary?
    (by rintro (_ | _ | _) <;> simp [Item.isShared]) items
  have positions : (items.filter (!·.isShared)).count .positions = items.count .positions :=
    List.count_filter rfl
  rcases selected with ⟨suits, path, inline, marked⟩ | ⟨suits, path, named⟩
  · exact .tree (fun item member => suits item (List.mem_of_mem_filter member))
      (paths.trans path) (policies.trans inline) (positions.trans marked)
  · exact .tokens (fun item member => suits item (List.mem_of_mem_filter member))
      (paths.trans path) (vocabularies.trans named)

theorem contains_eq_of_count {items : List Item} {asked : Bool}
    (count : items.count .ascii = asked.toNat) : items.contains .ascii = asked := by
  cases asked
  · simpa [List.count_eq_zero] using count
  · simpa using List.count_pos_iff.mp (count ▸ Nat.one_pos)

theorem verbosityOf_filter_isShared (items : List Item) :
    verbosityOf (items.filter (!·.isShared)) = 0 := by
  induction items with
  | nil => rfl
  | cons item items ih => cases item <;> simp_all [verbosityOf, Item.isShared]

/-- Without the shared options the arguments ask for the same command. -/
theorem Asks.withoutShared {arguments : List String} {invocation : Invocation}
    (asks : Asks arguments invocation) :
    invocation.ascii = asksForAscii arguments ∧
      Asks (withoutShared arguments) ⟨false, 0, invocation.command⟩ := by
  obtain @⟨before, after, shared, items, name, command, early, late, all, said, selected, asked,
    askedLate⟩ := asks
  obtain ⟨bare, ascii⟩ := withoutShared_before all (name.spelling :: after)
  obtain ⟨others, later⟩ := said.withoutShared
  have own : ∀ word ∈ [name.spelling], IsOwn word := by
    cases name <;> simpa [CommandName.spelling] using ⟨by decide, by decide⟩
  have unsaid : (items.filter (!·.isShared)).count .ascii = 0 :=
    List.count_eq_zero.mpr (by simp [Item.isShared])
  have named := withoutShared_append own after
  have namedLater := asksForAscii_append own after
  rw [List.singleton_append] at named namedLater
  constructor
  · rw [ascii, namedLater, later, contains_eq_of_count asked, contains_eq_of_count askedLate]
  · rw [bare, named]
    have bareAsks := @Asks.intro [] _ [] _ name command false false .nil others
      selected.withoutShared rfl unsaid
    rwa [verbosityOf_filter_isShared] at bareAsks

end ParseView.CommandLine
