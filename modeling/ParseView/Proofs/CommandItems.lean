import Mathlib.Data.List.Basic
import ParseView.CommandLine.Arguments

/-! What the arguments after the name of a command say, item by item, told from their spelling
alone, and that this is what is read from them. -/

namespace ParseView.CommandLine

inductive Item where
  | ascii
  | verbose (count : Nat)
  | path (path : String)
  | inline (policy : InlinePolicy)
  | positions
  | vocabulary (path : String)
deriving DecidableEq

namespace Item

def isShared : Item → Bool
  | ascii | verbose _ => true
  | _ => false

end Item

def policySpelling : InlinePolicy → String
  | .always => "always"
  | .directLine => "direct-line"
  | .never => "never"

/-- The argument is no option. A lone dash is none either. -/
def IsPlain (argument : String) : Prop :=
  argument = "-" ∨ argument.toList.head? ≠ some '-'

inductive Spells : Item → List String → Prop
  | ascii : Spells .ascii ["--ascii"]
  | verbose : Spells (.verbose 1) ["--verbose"]
  | letters (count : Nat) :
      Spells (.verbose (count + 1)) [String.ofList ('-' :: List.replicate (count + 1) 'v')]
  | path {path : String} (plain : IsPlain path) : Spells (.path path) [path]
  | inline (policy : InlinePolicy) : Spells (.inline policy) ["--inline", policySpelling policy]
  | inlineJoined (policy : InlinePolicy) :
      Spells (.inline policy) ["--inline=" ++ policySpelling policy]
  | positions : Spells .positions ["--positions"]
  | vocabulary {path : String} (plain : IsPlain path) :
      Spells (.vocabulary path) ["--vocabulary", path]
  | vocabularyJoined (path : String) : Spells (.vocabulary path) ["--vocabulary=" ++ path]

/-- The arguments say the items one after the other. After two dashes there are no options. -/
inductive Says : List String → List Item → Prop
  | nil : Says [] []
  | cons {words later : List String} {item : Item} {items : List Item} :
      Spells item words → Says later items → Says (words ++ later) (item :: items)
  | ended (paths : List String) : Says ("--" :: paths) (paths.map .path)

theorem policy?_eq_some_iff {value : String} {policy : InlinePolicy} :
    policy? value = some policy ↔ value = policySpelling policy := by
  constructor
  · intro found
    unfold policy? at found
    split at found
    · cases found
      assumption
    · split at found
      · cases found
        assumption
      · split at found
        · cases found
          assumption
        · simp at found
  · rintro rfl
    cases policy <;> rfl

theorem isPlain_policySpelling (policy : InlinePolicy) : IsPlain (policySpelling policy) := by
  cases policy <;> exact .inr (by decide)

namespace Argument

theorem splitValue_eq_some {characters name value : List Char}
    (parted : splitValue characters = (name, some value)) :
    characters = name ++ '=' :: value := by
  induction characters generalizing name with
  | nil => simp [splitValue] at parted
  | cons first rest ih =>
      rw [splitValue] at parted
      split at parted
      next equals =>
        cases parted
        rw [equals, List.nil_append]
      next =>
        obtain ⟨rfl, found⟩ := Prod.mk.inj parted
        exact congrArg (first :: ·) (ih (Prod.ext rfl found))

theorem splitValue_eq_none {characters name : List Char}
    (parted : splitValue characters = (name, none)) : characters = name := by
  induction characters generalizing name with
  | nil => simpa [splitValue] using parted
  | cons first rest ih =>
      rw [splitValue] at parted
      split at parted
      next => simp at parted
      next =>
        obtain ⟨rfl, absent⟩ := Prod.mk.inj parted
        exact congrArg (first :: ·) (ih (Prod.ext rfl absent))

theorem eq_of_separator {argument : String} (form : ofString argument = .separator) :
    argument = "--" := by
  unfold ofString at form
  split at form
  case h_1 dashes => exact String.toList_inj.mp dashes
  all_goals simp at form

theorem eq_of_plain {argument value : String} (form : ofString argument = .plain value) :
    value = argument ∧ IsPlain argument := by
  unfold ofString at form
  split at form
  case h_4 notDashes notLong notShort =>
    obtain rfl := plain.inj form
    refine ⟨rfl, ?_⟩
    cases shown : argument.toList with
    | nil => exact .inr (by simp [shown])
    | cons first rest =>
        by_cases dash : first = '-'
        · subst dash
          cases rest with
          | nil => exact .inl (String.toList_inj.mp shown)
          | cons second rest => exact absurd shown (notShort second rest)
        · exact .inr (by simpa [shown] using dash)
  all_goals simp at form

theorem eq_of_short {argument : String} {letters : List Char}
    (form : ofString argument = .short letters) :
    argument = String.ofList ('-' :: letters) ∧ letters ≠ [] := by
  unfold ofString at form
  split at form
  case h_3 shown =>
    obtain rfl := short.inj form
    exact ⟨String.toList_inj.mp (by rw [shown, String.toList_ofList]), by simp⟩
  all_goals simp at form

theorem eq_of_long {argument name : String} (form : ofString argument = .long name none) :
    argument = "--" ++ name := by
  unfold ofString at form
  split at form
  case h_2 rest _ shown =>
    obtain ⟨rfl, absent⟩ := long.inj form
    have whole : rest = (splitValue rest).1 :=
      splitValue_eq_none (Prod.ext rfl (Option.map_eq_none_iff.mp absent))
    apply String.toList_inj.mp
    calc argument.toList = '-' :: '-' :: rest := shown
      _ = '-' :: '-' :: (splitValue rest).1 := congrArg ('-' :: '-' :: ·) whole
      _ = ("--" ++ String.ofList (splitValue rest).1).toList := by simp
  all_goals simp at form

theorem eq_of_long_value {argument name value : String}
    (form : ofString argument = .long name (some value)) :
    argument = "--" ++ name ++ "=" ++ value := by
  unfold ofString at form
  split at form
  case h_2 rest _ shown =>
    obtain ⟨rfl, given⟩ := long.inj form
    obtain ⟨characters, found, rfl⟩ := Option.map_eq_some_iff.mp given
    have whole : rest = (splitValue rest).1 ++ '=' :: characters :=
      splitValue_eq_some (Prod.ext rfl found)
    apply String.toList_inj.mp
    rw [shown, whole]
    simp [← whole]
  all_goals simp at form

theorem ofString_letters (count : Nat) :
    ofString (String.ofList ('-' :: List.replicate (count + 1) 'v')) =
      .short (List.replicate (count + 1) 'v') := by
  simp [ofString, List.replicate_succ]

theorem ofString_of_plain {argument : String} (plain : IsPlain argument) :
    ofString argument = .plain argument := by
  rcases plain with rfl | unmarked
  · rfl
  · unfold ofString
    split
    case h_4 => rfl
    all_goals
      rename_i shown
      simp [shown] at unmarked

end Argument

namespace Shared

def take? (shared : Shared) : Item → Option Shared
  | .ascii => if shared.ascii then none else some { shared with ascii := true }
  | .verbose count => some { shared with verbosity := shared.verbosity + count }
  | _ => none

theorem isShared_of_take? {item : Item} {shared next : Shared}
    (taken : shared.take? item = some next) : item.isShared := by
  cases item with
  | ascii | verbose => rfl
  | _ => simp [take?] at taken

theorem letters_replicate (versionAllowed : Bool) (shared : Shared) (count : Nat) :
    shared.letters versionAllowed (List.replicate count 'v') =
      .ok { shared with verbosity := shared.verbosity + count } := by
  induction count generalizing shared with
  | zero => rfl
  | succ count ih =>
      rw [List.replicate_succ, letters, if_pos rfl, ih]
      simp only [Nat.add_assoc, Nat.add_comm 1]

theorem letters_eq_ok {versionAllowed : Bool} {letters : List Char} {shared next : Shared}
    (accepted : shared.letters versionAllowed letters = .ok next) :
    letters = List.replicate letters.length 'v' ∧
      next = { shared with verbosity := shared.verbosity + letters.length } := by
  have spelled : ∀ letter ∈ letters, letter = 'v' := by
    induction letters generalizing shared with
    | nil => simp
    | cons letter rest ih =>
        rw [Shared.letters] at accepted
        split at accepted
        next spelled => simpa [spelled] using ih accepted
        next =>
          split at accepted
          · simp at accepted
          · split at accepted <;> simp [usage] at accepted
  have same := List.eq_replicate_of_mem spelled
  rw [same, letters_replicate] at accepted
  exact ⟨same, (Except.ok.inj accepted).symm⟩

theorem exists_item_of_long {argument name : String} {value : Option String} {shared next : Shared}
    (form : Argument.ofString argument = .long name value)
    (accepted : shared.long? name value = .ok (some next)) :
    ∃ item, Spells item [argument] ∧ shared.take? item = some next := by
  unfold long? at accepted
  split at accepted
  · split at accepted
    · simp [usage] at accepted
    next absent =>
      obtain rfl : value = none := by simpa using absent
      have spelled := Argument.eq_of_long form
      split at accepted
      · simp at accepted
      · split at accepted
        next verbose =>
          obtain rfl := Option.some.inj (Except.ok.inj accepted)
          subst verbose spelled
          exact ⟨.verbose 1, .verbose, rfl⟩
        next notVerbose =>
          split at accepted
          · simp [usage] at accepted
          next unsaid =>
            obtain rfl := Option.some.inj (Except.ok.inj accepted)
            obtain rfl : name = "ascii" := by simp_all
            subst spelled
            exact ⟨.ascii, .ascii, by simp [take?, unsaid]⟩
  · simp at accepted

theorem exists_item_of_short {argument : String} {letters : List Char} {versionAllowed : Bool}
    {shared next : Shared} (form : Argument.ofString argument = .short letters)
    (accepted : shared.letters versionAllowed letters = .ok next) :
    ∃ item, Spells item [argument] ∧ shared.take? item = some next := by
  obtain ⟨spelled, nonempty⟩ := Argument.eq_of_short form
  obtain ⟨count, shown⟩ := Nat.exists_eq_add_one.mpr (List.length_pos_iff.mpr nonempty)
  obtain ⟨same, rfl⟩ := letters_eq_ok accepted
  rw [shown] at same ⊢
  subst spelled
  rw [same]
  exact ⟨.verbose (count + 1), .letters count, rfl⟩

end Shared

theorem eq_ok_of_bind {α β : Type} {first : Except Stop α} {next : α → Except Stop β} {result : β}
    (accepted : (first >>= next) = .ok result) :
    ∃ value, first = .ok value ∧ next value = .ok result := by
  cases first with
  | error stop => simp [bind, Except.bind] at accepted
  | ok value => exact ⟨value, rfl, accepted⟩

namespace Gathered

variable {command : CommandName} {gathered next result : Gathered}

def take? (command : CommandName) (gathered : Gathered) (item : Item) : Option Gathered :=
  match command, item with
  | _, .path path =>
      if gathered.path.isSome then none else some { gathered with path := some path }
  | .tree, .inline policy =>
      if gathered.inline.isSome then none else some { gathered with inline := some policy }
  | .tree, .positions =>
      if gathered.positions then none else some { gathered with positions := true }
  | .tokens, .vocabulary path =>
      if gathered.vocabulary.isSome then none else some { gathered with vocabulary := some path }
  | _, item => (gathered.shared.take? item).map ({ gathered with shared := · })

theorem take?_of_shared {item : Item} {shared : Shared}
    (taken : gathered.shared.take? item = some shared) :
    gathered.take? command item = some { gathered with shared := shared } := by
  cases item with
  | ascii => cases command <;> simp [take?, taken]
  | verbose count => cases command <;> simp [take?, taken]
  | _ => simp [Shared.take?] at taken

theorem addPath_eq_ok_iff {path : String} :
    gathered.addPath path = .ok next ↔ gathered.take? command (.path path) = some next := by
  cases command <;> simp only [addPath, take?] <;> split <;> simp [usage]

theorem valued_eq_ok_iff {name value : String} :
    gathered.valued command name value = .ok next ↔
      ∃ item, gathered.take? command item = some next ∧
        ((command = .tree ∧ ∃ policy, item = .inline policy ∧ value = policySpelling policy) ∨
          (command = .tokens ∧ item = .vocabulary value)) := by
  cases command with
  | tree =>
      simp only [valued, reduceCtorEq, false_and, or_false, true_and]
      split
      next said => simp [usage, take?, said]
      next unsaid =>
        constructor
        · intro accepted
          split at accepted
          next policy found =>
            refine ⟨.inline policy, ?_, policy, rfl, policy?_eq_some_iff.mp found⟩
            simpa [take?, unsaid] using accepted
          next => simp [usage] at accepted
        · rintro ⟨item, taken, policy, rfl, rfl⟩
          rw [policy?_eq_some_iff.mpr rfl]
          simpa [take?, unsaid] using taken
  | tokens =>
      simp only [valued, reduceCtorEq, false_and, false_or, true_and, exists_eq_right, take?]
      split <;> simp [usage]

theorem exists_item_of_valued {name value : String} (takes : takesValue command name = true)
    (accepted : gathered.valued command name value = .ok next) :
    ∃ item, gathered.take? command item = some next ∧
      Spells item ["--" ++ name ++ "=" ++ value] ∧
      (IsPlain value → Spells item ["--" ++ name, value]) := by
  obtain ⟨item, taken, said⟩ := valued_eq_ok_iff.mp accepted
  refine ⟨item, taken, ?_⟩
  rcases said with ⟨rfl, policy, rfl, rfl⟩ | ⟨rfl, rfl⟩
  · obtain rfl : name = "inline" := by simpa [takesValue] using takes
    exact ⟨.inlineJoined policy, fun _ => .inline policy⟩
  · obtain rfl : name = "vocabulary" := by simpa [takesValue] using takes
    exact ⟨.vocabularyJoined value, fun plain => .vocabulary plain⟩

theorem exists_item_of_flag {argument name : String} {value : Option String}
    (form : Argument.ofString argument = .long name value)
    (accepted : gathered.flag command name value = .ok next) :
    ∃ item, gathered.take? command item = some next ∧ Spells item [argument] := by
  obtain ⟨found, shown, chosen⟩ := eq_ok_of_bind accepted
  cases found with
  | some shared =>
      obtain ⟨item, spelled, taken⟩ := Shared.exists_item_of_long form shown
      obtain rfl := Except.ok.inj chosen
      exact ⟨item, take?_of_shared taken, spelled⟩
  | none =>
      dsimp only at chosen
      split at chosen
      next own =>
        obtain ⟨rfl, rfl⟩ := own
        split at chosen
        · simp [usage] at chosen
        next absent =>
          obtain rfl : value = none := by simpa using absent
          obtain rfl := Argument.eq_of_long form
          split at chosen
          · simp [usage] at chosen
          next unsaid =>
            obtain rfl := Except.ok.inj chosen
            exact ⟨.positions, by simp [take?, unsaid], .positions⟩
      next => simp [usage] at chosen

theorem exists_item_of_read {argument : String} {rest : List String}
    (accepted : read command gathered false (argument :: rest) = .ok result) :
    (argument = "--" ∧ read command gathered true rest = .ok result) ∨
    ∃ item words later next, argument :: rest = words ++ later ∧ words ≠ [] ∧ Spells item words ∧
      gathered.take? command item = some next ∧ read command next false later = .ok result := by
  cases form : Argument.ofString argument with
  | separator =>
      simp only [read, form] at accepted
      exact .inl ⟨Argument.eq_of_separator form, accepted⟩
  | plain value =>
      simp only [read, form] at accepted
      obtain ⟨rfl, plain⟩ := Argument.eq_of_plain form
      obtain ⟨next, added, later⟩ := eq_ok_of_bind accepted
      exact .inr ⟨_, [value], rest, next, rfl, by simp, .path plain, addPath_eq_ok_iff.mp added,
        later⟩
  | short letters =>
      simp only [read, form] at accepted
      obtain ⟨shared, counted, later⟩ := eq_ok_of_bind accepted
      obtain ⟨item, spelled, taken⟩ := Shared.exists_item_of_short form counted
      exact .inr ⟨item, [argument], rest, _, rfl, by simp, spelled, take?_of_shared taken, later⟩
  | long name value =>
      simp only [read, form] at accepted
      split at accepted
      next takes =>
        split at accepted
        next value =>
          obtain ⟨next, valued, later⟩ := eq_ok_of_bind accepted
          obtain ⟨item, taken, joined, _⟩ := exists_item_of_valued takes valued
          rw [← Argument.eq_of_long_value form] at joined
          exact .inr ⟨item, [argument], rest, next, rfl, by simp, joined, taken, later⟩
        next => simp [usage] at accepted
        next word later =>
          split at accepted
          next value shown =>
            obtain ⟨rfl, plain⟩ := Argument.eq_of_plain shown
            obtain ⟨next, valued, accepted⟩ := eq_ok_of_bind accepted
            obtain ⟨item, taken, _, apart⟩ := exists_item_of_valued takes valued
            rw [← Argument.eq_of_long form] at apart
            exact .inr ⟨item, [argument, value], later, next, rfl, by simp, apart plain, taken,
              accepted⟩
          next => simp [usage] at accepted
      next =>
        obtain ⟨next, flagged, later⟩ := eq_ok_of_bind accepted
        obtain ⟨item, taken, spelled⟩ := exists_item_of_flag form flagged
        exact .inr ⟨item, [argument], rest, next, rfl, by simp, spelled, taken, later⟩

theorem read_of_flag {argument name : String} (rest : List String)
    (form : Argument.ofString argument = .long name none) (takes : takesValue command name = false)
    (flagged : gathered.flag command name none = .ok next) :
    read command gathered false (argument :: rest) = read command next false rest := by
  simp [read, form, takes, flagged, bind, Except.bind]

theorem flag_of_shared {name : String} {shared : Shared}
    (said : gathered.shared.long? name none = .ok (some shared)) :
    gathered.flag command name none = .ok { gathered with shared := shared } := by
  simp [flag, said, bind, Except.bind, pure, Except.pure]

theorem read_of_joined {argument name value : String} (rest : List String)
    (form : Argument.ofString argument = .long name (some value))
    (takes : takesValue command name = true)
    (valued : gathered.valued command name value = .ok next) :
    read command gathered false (argument :: rest) = read command next false rest := by
  simp [read, form, takes, valued, bind, Except.bind]

theorem read_of_apart {argument name value : String} (rest : List String)
    (form : Argument.ofString argument = .long name none) (plain : IsPlain value)
    (takes : takesValue command name = true)
    (valued : gathered.valued command name value = .ok next) :
    read command gathered false (argument :: value :: rest) = read command next false rest := by
  simp [read, form, Argument.ofString_of_plain plain, takes, valued, bind, Except.bind]

theorem inline_of_take? {policy : InlinePolicy}
    (taken : gathered.take? command (.inline policy) = some next) :
    command = .tree ∧ gathered.valued command "inline" (policySpelling policy) = .ok next := by
  have suits : command = .tree := by
    cases command
    · rfl
    · simp [take?, Shared.take?] at taken
  exact ⟨suits, valued_eq_ok_iff.mpr ⟨_, taken, .inl ⟨suits, policy, rfl, rfl⟩⟩⟩

theorem vocabulary_of_take? {path : String}
    (taken : gathered.take? command (.vocabulary path) = some next) :
    command = .tokens ∧ gathered.valued command "vocabulary" path = .ok next := by
  have suits : command = .tokens := by
    cases command
    · simp [take?, Shared.take?] at taken
    · rfl
  exact ⟨suits, valued_eq_ok_iff.mpr ⟨_, taken, .inr ⟨suits, rfl⟩⟩⟩

theorem read_of_spells {item : Item} {words : List String} (spelled : Spells item words)
    (taken : gathered.take? command item = some next) (later : List String) :
    read command gathered false (words ++ later) = read command next false later := by
  cases spelled with
  | ascii =>
      have form : Argument.ofString "--ascii" = .long "ascii" none := rfl
      have own : gathered.shared.ascii = false ∧
          next = { gathered with shared := { gathered.shared with ascii := true } } := by
        cases command <;> simp_all [take?, Shared.take?]
      obtain ⟨unsaid, rfl⟩ := own
      refine read_of_flag later form (by cases command <;> rfl) (flag_of_shared ?_)
      simp [Shared.long?, unsaid]
  | verbose =>
      have form : Argument.ofString "--verbose" = .long "verbose" none := rfl
      obtain rfl : { gathered with shared :=
          { gathered.shared with verbosity := gathered.shared.verbosity + 1 } } = next := by
        cases command <;> exact Option.some.inj taken
      exact read_of_flag later form (by cases command <;> rfl) (flag_of_shared rfl)
  | letters count =>
      obtain rfl :
          { gathered with shared :=
            { gathered.shared with verbosity := gathered.shared.verbosity + (count + 1) } } =
              next := by
        cases command <;> exact Option.some.inj taken
      simp only [List.cons_append, List.nil_append, read, Argument.ofString_letters,
        Shared.letters_replicate]
      rfl
  | path plain =>
      have added := addPath_eq_ok_iff.mpr taken
      simp [read, Argument.ofString_of_plain plain, added, bind, Except.bind]
  | inline policy =>
      have form : Argument.ofString "--inline" = .long "inline" none := rfl
      obtain ⟨rfl, valued⟩ := inline_of_take? taken
      exact read_of_apart later form (isPlain_policySpelling policy) rfl valued
  | inlineJoined policy =>
      have form : Argument.ofString ("--inline=" ++ policySpelling policy) =
          .long "inline" (some (policySpelling policy)) := by
        cases policy <;> rfl
      obtain ⟨rfl, valued⟩ := inline_of_take? taken
      exact read_of_joined later form rfl valued
  | positions =>
      have form : Argument.ofString "--positions" = .long "positions" none := rfl
      cases command with
      | tree =>
          obtain ⟨unsaid, rfl⟩ : gathered.positions = false ∧
              { gathered with positions := true } = next := by simp_all [take?]
          refine read_of_flag later form rfl ?_
          simp [flag, Shared.long?, unsaid, bind, Except.bind, pure, Except.pure]
      | tokens => simp [take?, Shared.take?] at taken
  | vocabulary plain =>
      have form : Argument.ofString "--vocabulary" = .long "vocabulary" none := rfl
      obtain ⟨rfl, valued⟩ := vocabulary_of_take? taken
      exact read_of_apart later form plain rfl valued
  | vocabularyJoined path =>
      have form : Argument.ofString ("--vocabulary=" ++ path) =
          .long "vocabulary" (some path) := by
        simp [Argument.ofString, Argument.splitValue]
      obtain ⟨rfl, valued⟩ := vocabulary_of_take? taken
      exact read_of_joined later form rfl valued

theorem read_ended_eq_ok_iff {paths : List String} :
    read command gathered true paths = .ok result ↔
      (paths.map Item.path).foldlM (take? command) gathered = some result := by
  induction paths generalizing gathered with
  | nil => simp [read]
  | cons path rest ih =>
      rw [List.map_cons, List.foldlM_cons, Option.bind_eq_bind, Option.bind_eq_some_iff, read]
      constructor
      · intro accepted
        obtain ⟨next, added, later⟩ := eq_ok_of_bind accepted
        exact ⟨next, addPath_eq_ok_iff.mp added, ih.mp later⟩
      · rintro ⟨next, taken, later⟩
        rw [addPath_eq_ok_iff.mpr taken]
        exact ih.mpr later

/-- Reading arguments is taking up the items that they say. -/
theorem read_eq_ok_iff {arguments : List String} :
    read command gathered false arguments = .ok result ↔
      ∃ items, Says arguments items ∧ items.foldlM (take? command) gathered = some result := by
  constructor
  · -- An option and its value are read in one step, so the rest may be shorter by two.
    induction size : arguments.length using Nat.strongRecOn generalizing arguments gathered with
    | _ size ih =>
    subst size
    intro accepted
    cases arguments with
    | nil => exact ⟨[], .nil, by simpa [read] using accepted⟩
    | cons argument rest =>
        obtain ⟨rfl, ended⟩ | ⟨item, words, later, next, parted, nonempty, spelled, taken, read⟩ :=
          exists_item_of_read accepted
        · exact ⟨_, .ended rest, read_ended_eq_ok_iff.mp ended⟩
        · have shorter : later.length < (argument :: rest).length := by
            rw [parted, List.length_append]
            have := List.length_pos_iff.mpr nonempty
            omega
          obtain ⟨items, said, folded⟩ := ih later.length shorter rfl read
          rw [parted]
          exact ⟨item :: items, .cons spelled said, by simpa [taken] using folded⟩
  · rintro ⟨items, said, folded⟩
    induction said generalizing gathered with
    | nil => simpa [read] using folded
    | cons spelled _ ih =>
        rw [List.foldlM_cons, Option.bind_eq_bind, Option.bind_eq_some_iff] at folded
        obtain ⟨next, taken, folded⟩ := folded
        rw [read_of_spells spelled taken]
        exact ih folded
    | ended paths => exact read_ended_eq_ok_iff.mpr folded

end Gathered

end ParseView.CommandLine
