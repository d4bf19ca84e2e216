import Mathlib.Algebra.GroupWithZero.Nat
import Mathlib.Data.List.Forall2
import Mathlib.Tactic.MkIffOfInductiveProp
import ParseView.Proofs.CommandItems

/-! Which command lines are accepted and what they ask for, told from their spelling alone. -/

namespace ParseView.CommandLine

namespace Item

@[simp] def path? : Item → Option String
  | .path given => some given
  | _ => none

@[simp] def inline? : Item → Option InlinePolicy
  | .inline policy => some policy
  | _ => none

@[simp] def vocabulary? : Item → Option String
  | .vocabulary named => some named
  | _ => none

@[simp] def verbosity : Item → Nat
  | .verbose count => count
  | _ => 0

def Suits : CommandName → Item → Prop
  | .tree, vocabulary _ => False
  | .tokens, inline _ | .tokens, positions => False
  | _, _ => True

theorem vocabulary?_of_suits {item : Item} (suits : item.Suits .tree) : item.vocabulary? = none := by
  cases item with
  | vocabulary => exact suits.elim
  | _ => rfl

theorem inline?_of_suits {item : Item} (suits : item.Suits .tokens) : item.inline? = none := by
  cases item with
  | inline => exact suits.elim
  | _ => rfl

end Item

def CommandName.spelling : CommandName → String
  | tree => "tree"
  | tokens => "tokens"

/-- The items after the name of a command select just this command: one path, and every option at
most once. -/
inductive Selects (items : List Item) : CommandName → Command → Prop
  | tree {path : String} {inline : Option InlinePolicy} {positions : Bool} :
      (∀ item ∈ items, item.Suits .tree) → items.filterMap Item.path? = [path] →
      items.filterMap Item.inline? = inline.toList → items.count .positions = positions.toNat →
      Selects items .tree (.tree path ⟨inline.getD .directLine, positions⟩)
  | tokens {path : String} {named : Option String} :
      (∀ item ∈ items, item.Suits .tokens) → items.filterMap Item.path? = [path] →
      items.filterMap Item.vocabulary? = named.toList →
      Selects items .tokens (.tokens path named)

def verbosityOf (items : List Item) : Nat :=
  (items.map Item.verbosity).sum

/-- The arguments ask for this invocation. The log option counts where it stands last. -/
inductive Asks : List String → Invocation → Prop
  | intro {before after : List String} {shared items : List Item} {name : CommandName}
      {command : Command} {early late : Bool} :
      List.Forall₂ (fun item word => item.isShared ∧ Spells item [word]) shared before →
      Says after items → Selects items name command →
      shared.count .ascii = early.toNat → items.count .ascii = late.toNat →
      Asks (before ++ name.spelling :: after)
        ⟨early || late,
          if verbosityOf items = 0 then verbosityOf shared else verbosityOf items, command⟩

theorem commandName?_eq_some_iff {value : String} {name : CommandName} :
    commandName? value = some name ↔ value = name.spelling := by
  constructor
  · intro found
    unfold commandName? at found
    split at found
    · cases found
      assumption
    · split at found
      · cases found
        assumption
      · simp at found
  · rintro rfl
    cases name <;> rfl

theorem toList_eq_append_cons_iff {α : Type} {before after : Option α} {value : α}
    {later : List α} :
    after.toList = before.toList ++ value :: later ↔
      before.isSome = false ∧ after.toList = value :: later := by
  cases before with
  | none => simp
  | some => cases after <;> simp

theorem toNat_eq_add_succ_iff {before after : Bool} {later : Nat} :
    after.toNat = before.toNat + (later + 1) ↔ before = false ∧ after.toNat = 1 + later := by
  cases before
  · simp [Nat.add_comm]
  · have := after.toNat_le
    simp
    omega

theorem toList_inj_iff {α : Type} {first second : Option α} :
    first.toList = second.toList ↔ first = second := by
  cases first <;> cases second <;> simp

theorem toNat_inj_iff {first second : Bool} : first.toNat = second.toNat ↔ first = second := by
  cases first <;> cases second <;> simp

namespace Gathered

variable {command : CommandName} {gathered result : Gathered}

@[mk_iff]
structure Collects (command : CommandName) (gathered : Gathered) (items : List Item)
    (result : Gathered) : Prop where
  suits : ∀ item ∈ items, item.Suits command
  path : result.path.toList = gathered.path.toList ++ items.filterMap Item.path?
  inline : result.inline.toList = gathered.inline.toList ++ items.filterMap Item.inline?
  positions : result.positions.toNat = gathered.positions.toNat + items.count .positions
  vocabulary :
    result.vocabulary.toList = gathered.vocabulary.toList ++ items.filterMap Item.vocabulary?
  ascii : result.shared.ascii.toNat = gathered.shared.ascii.toNat + items.count .ascii
  verbosity : result.shared.verbosity = gathered.shared.verbosity + verbosityOf items

theorem collects_nil_iff : Collects command gathered [] result ↔ result = gathered := by
  obtain ⟨⟨ascii, verbosity⟩, path, inline, positions, vocabulary⟩ := gathered
  obtain ⟨⟨ascii', verbosity'⟩, path', inline', positions', vocabulary'⟩ := result
  simp [collects_iff, verbosityOf, toList_inj_iff, toNat_inj_iff]
  tauto

theorem collects_cons_iff {item : Item} {items : List Item} :
    Collects command gathered (item :: items) result ↔
      ∃ next, gathered.take? command item = some next ∧ Collects command next items result := by
  simp only [collects_iff, List.forall_mem_cons, List.filterMap_cons, List.count_cons, verbosityOf,
    List.map_cons, List.sum_cons]
  cases command <;> cases item <;>
    simp [take?, Shared.take?, Item.Suits, toList_eq_append_cons_iff, toNat_eq_add_succ_iff,
      Nat.add_assoc] <;>
    tauto

theorem foldlM_take?_eq_some_iff {items : List Item} :
    items.foldlM (take? command) gathered = some result ↔
      Collects command gathered items result := by
  induction items generalizing gathered with
  | nil => simp [collects_nil_iff, eq_comm]
  | cons item items ih =>
      rw [List.foldlM_cons, Option.bind_eq_bind, Option.bind_eq_some_iff, collects_cons_iff]
      simp only [ih]

theorem command_eq_ok_iff {items : List Item} {chosen : Command}
    (collected : Collects command {} items gathered) :
    gathered.command command = .ok chosen ↔ Selects items command chosen := by
  have path : gathered.path.toList = items.filterMap Item.path? := collected.path
  have inline : gathered.inline.toList = items.filterMap Item.inline? := collected.inline
  have vocabulary : gathered.vocabulary.toList = items.filterMap Item.vocabulary? :=
    collected.vocabulary
  have positions : gathered.positions.toNat = items.count .positions := by
    simpa using collected.positions
  constructor
  · intro accepted
    rw [Gathered.command] at accepted
    split at accepted
    · simp [usage] at accepted
    next given found =>
      rw [found] at path
      cases command <;> obtain rfl := Except.ok.inj accepted
      · exact .tree collected.suits path.symm inline.symm positions.symm
      · exact .tokens collected.suits path.symm vocabulary.symm
  · rintro (⟨_, single, once, marked⟩ | ⟨_, single, once⟩)
    · rw [single, ← Option.toList_some, toList_inj_iff] at path
      rw [once, toList_inj_iff] at inline
      rw [marked, toNat_inj_iff] at positions
      rw [Gathered.command, path, inline, positions]
    · rw [single, ← Option.toList_some, toList_inj_iff] at path
      rw [once, toList_inj_iff] at vocabulary
      rw [Gathered.command, path, vocabulary]

theorem exists_collects {items : List Item} {chosen : Command} {ascii : Bool}
    (selected : Selects items command chosen) (asked : items.count .ascii = ascii.toNat) :
    ∃ gathered, Collects command {} items gathered ∧
      gathered.shared = ⟨ascii, verbosityOf items⟩ := by
  cases selected with
  | @tree path inline positions suits single once marked =>
      have none : items.filterMap Item.vocabulary? = [] :=
        List.filterMap_eq_nil_iff.mpr fun item member =>
          Item.vocabulary?_of_suits (suits item member)
      exact ⟨⟨⟨ascii, verbosityOf items⟩, some path, inline, positions, Option.none⟩,
        ⟨suits, single.symm, once.symm, by simp [marked], none.symm, by simp [asked], by simp⟩, rfl⟩
  | @tokens path named suits single once =>
      have none : items.filterMap Item.inline? = [] :=
        List.filterMap_eq_nil_iff.mpr fun item member =>
          Item.inline?_of_suits (suits item member)
      have unmarked : items.count .positions = 0 :=
        List.count_eq_zero.mpr fun member => suits _ member
      exact ⟨⟨⟨ascii, verbosityOf items⟩, some path, Option.none, false, named⟩,
        ⟨suits, single.symm, none.symm, by simp [unmarked], once.symm, by simp [asked],
          by simp⟩, rfl⟩

end Gathered

theorem forall_isShared {before : List String} {items : List Item}
    (all : List.Forall₂ (fun item word => item.isShared ∧ Spells item [word]) items before) :
    ∀ item ∈ items, item.isShared := by
  induction all with
  | nil => simp
  | cons said _ ih => simpa [said.1] using ih

theorem Shared.foldlM_take?_eq_some_iff {items : List Item} {shared next : Shared} :
    items.foldlM Shared.take? shared = some next ↔
      (∀ item ∈ items, item.isShared) ∧
        next.ascii.toNat = shared.ascii.toNat + items.count .ascii ∧
        next.verbosity = shared.verbosity + verbosityOf items := by
  induction items generalizing shared with
  | nil =>
      obtain ⟨ascii, verbosity⟩ := shared
      obtain ⟨ascii', verbosity'⟩ := next
      simp [verbosityOf, toNat_inj_iff, @eq_comm _ ascii, @eq_comm _ verbosity]
  | cons item items ih =>
      simp only [List.foldlM_cons, Option.bind_eq_bind, Option.bind_eq_some_iff, ih,
        List.forall_mem_cons, List.count_cons, verbosityOf, List.map_cons, List.sum_cons]
      cases item <;>
        simp [Shared.take?, Item.isShared, toNat_eq_add_succ_iff, Nat.add_assoc]
      case ascii => tauto

namespace Invocation

variable {shared : Shared} {invocation : Invocation}

theorem ofCommand_eq_ok_iff {name : CommandName} {arguments : List String} :
    ofCommand shared name arguments = .ok invocation ↔
      ∃ items command late, Says arguments items ∧ Selects items name command ∧
        items.count .ascii = late.toNat ∧ invocation = ⟨shared.ascii || late,
          if verbosityOf items = 0 then shared.verbosity else verbosityOf items, command⟩ := by
  constructor
  · intro accepted
    obtain ⟨gathered, read, accepted⟩ := eq_ok_of_bind accepted
    obtain ⟨command, named, chosen⟩ := eq_ok_of_bind accepted
    obtain ⟨items, said, folded⟩ := Gathered.read_eq_ok_iff.mp read
    have collected := Gathered.foldlM_take?_eq_some_iff.mp folded
    have verbosity : gathered.shared.verbosity = verbosityOf items := by
      simpa using collected.verbosity
    refine ⟨items, command, gathered.shared.ascii, said,
      (Gathered.command_eq_ok_iff collected).mp named, by simpa using collected.ascii.symm, ?_⟩
    rw [← Except.ok.inj chosen, verbosity]
  · rintro ⟨items, command, late, said, selected, asked, rfl⟩
    obtain ⟨gathered, collected, common⟩ := Gathered.exists_collects selected asked
    have read := Gathered.read_eq_ok_iff.mpr
      ⟨items, said, Gathered.foldlM_take?_eq_some_iff.mpr collected⟩
    have named := (Gathered.command_eq_ok_iff collected).mpr selected
    simp [ofCommand, read, named, common, bind, Except.bind, pure, Except.pure]

theorem exists_item_of_read {argument : String} {rest : List String}
    (accepted : read shared (argument :: rest) = .ok invocation) :
    (∃ item next, Spells item [argument] ∧ shared.take? item = some next ∧
        read next rest = .ok invocation) ∨
      ∃ name : CommandName, argument = name.spelling ∧
        ofCommand shared name rest = .ok invocation := by
  cases form : Argument.ofString argument with
  | separator =>
      simp only [read, form] at accepted
      split at accepted <;> simp [usage] at accepted
  | plain value =>
      simp only [read, form] at accepted
      obtain ⟨rfl, _⟩ := Argument.eq_of_plain form
      split at accepted
      next name named => exact .inr ⟨name, commandName?_eq_some_iff.mp named, accepted⟩
      next => split at accepted <;> simp [usage] at accepted
  | short letters =>
      simp only [read, form] at accepted
      obtain ⟨next, counted, later⟩ := eq_ok_of_bind accepted
      obtain ⟨item, spelled, taken⟩ := Shared.exists_item_of_short form counted
      exact .inl ⟨item, next, spelled, taken, later⟩
  | long name value =>
      simp only [read, form] at accepted
      split at accepted
      · split at accepted <;> simp [usage] at accepted
      · obtain ⟨found, shown, chosen⟩ := eq_ok_of_bind accepted
        cases found with
        | none => simp [usage] at chosen
        | some next =>
            obtain ⟨item, spelled, taken⟩ := Shared.exists_item_of_long form shown
            exact .inl ⟨item, next, spelled, taken, chosen⟩

theorem read_of_spells {item : Item} {word : String} {next : Shared} (spelled : Spells item [word])
    (taken : shared.take? item = some next) (rest : List String) :
    read shared (word :: rest) = read next rest := by
  cases spelled with
  | ascii =>
      have form : Argument.ofString "--ascii" = .long "ascii" none := rfl
      obtain ⟨unsaid, rfl⟩ : shared.ascii = false ∧ { shared with ascii := true } = next := by
        simpa [Shared.take?] using taken
      simp [read, form, Shared.long?, unsaid, bind, Except.bind]
  | verbose =>
      have form : Argument.ofString "--verbose" = .long "verbose" none := rfl
      obtain rfl := Option.some.inj taken
      simp [read, form, Shared.long?, bind, Except.bind]
  | letters count =>
      obtain rfl := Option.some.inj taken
      simp only [read, Argument.ofString_letters, Shared.letters_replicate]
      rfl
  | _ => simp [Shared.take?] at taken

theorem read_spelling (name : CommandName) (rest : List String) :
    read shared (name.spelling :: rest) = ofCommand shared name rest := by
  cases name <;> rfl

theorem read_eq_ok_iff {arguments : List String} :
    read shared arguments = .ok invocation ↔
      ∃ before items next name after, arguments = before ++ CommandName.spelling name :: after ∧
        List.Forall₂ (fun item word => item.isShared ∧ Spells item [word]) items before ∧
        items.foldlM Shared.take? shared = some next ∧
        ofCommand next name after = .ok invocation := by
  constructor
  · -- Each argument is a shared option, which changes what is gathered, or the name of the command.
    induction arguments generalizing shared with
    | nil => simp [read, usage]
    | cons argument rest ih =>
        intro accepted
        obtain ⟨item, next, spelled, taken, later⟩ | ⟨name, rfl, named⟩ :=
          exists_item_of_read accepted
        · obtain ⟨before, items, last, name, after, rfl, all, folded, named⟩ := ih later
          exact ⟨argument :: before, item :: items, last, name, after, rfl,
            .cons ⟨Shared.isShared_of_take? taken, spelled⟩ all,
            by simpa [taken] using folded, named⟩
        · exact ⟨[], [], shared, name, rest, rfl, .nil, rfl, named⟩
  · rintro ⟨before, items, next, name, after, rfl, all, folded, named⟩
    induction all generalizing shared with
    | nil =>
        obtain rfl := Option.some.inj folded
        rwa [List.nil_append, read_spelling]
    | cons said _ ih =>
        rw [List.foldlM_cons, Option.bind_eq_bind, Option.bind_eq_some_iff] at folded
        obtain ⟨middle, taken, folded⟩ := folded
        rw [List.cons_append, read_of_spells said.2 taken]
        exact ih folded

/-- The command lines that are accepted are those that ask for something, and what they ask for is
what is read. -/
theorem ofArguments_eq_ok_iff {arguments : List String} :
    ofArguments arguments = .ok invocation ↔ Asks arguments invocation := by
  rw [ofArguments, read_eq_ok_iff]
  constructor
  · rintro ⟨before, shared, next, name, after, rfl, all, folded, named⟩
    obtain ⟨items, command, late, said, selected, asked, rfl⟩ := ofCommand_eq_ok_iff.mp named
    obtain ⟨_, ascii, verbosity⟩ := Shared.foldlM_take?_eq_some_iff.mp folded
    rw [Nat.zero_add] at verbosity
    rw [verbosity]
    exact .intro all said selected (by simpa using ascii.symm) asked
  · rintro ⟨all, said, selected, before, asked⟩
    rename_i early late
    refine ⟨_, _, ⟨early, verbosityOf _⟩, _, _, rfl, all, ?_,
      ofCommand_eq_ok_iff.mpr ⟨_, _, late, said, selected, asked, rfl⟩⟩
    exact Shared.foldlM_take?_eq_some_iff.mpr ⟨forall_isShared all, by simp [before], by simp⟩

end Invocation

theorem Asks.unique {arguments : List String} {invocation other : Invocation}
    (asks : Asks arguments invocation) (again : Asks arguments other) : invocation = other :=
  Except.ok.inj ((Invocation.ofArguments_eq_ok_iff.mpr asks).symm.trans
    (Invocation.ofArguments_eq_ok_iff.mpr again))

end ParseView.CommandLine
