import ParseView.CommandLine.Run

/-! The stages of loading what a command names, and how the first of them that fails is reported. -/

namespace ParseView.CommandLine

abbrev Files := String → Except ReadFault ByteArray

inductive Stage where
  | readDump
  | decodeDump
  | readVocabulary
  | parseVocabulary
deriving DecidableEq, Repr

def Stage.rank : Stage → Nat
  | readDump => 0
  | decodeDump => 1
  | readVocabulary => 2
  | parseVocabulary => 3

def Command.path : Command → String
  | tree path _ => path
  | tokens path _ => path

namespace Files

def text (files : Files) (path : String) : Except ReadFault String :=
  match files path with
  | .error fault => .error fault
  | .ok bytes =>
      match String.fromUTF8? bytes with
      | some text => .ok text
      | none => .error .notText

theorem text_of_toUTF8 {files : Files} {path content : String}
    (holds : files path = .ok content.toUTF8) : files.text path = .ok content := by
  have valid : String.fromUTF8? content.toUTF8 = some content := by
    unfold String.fromUTF8?
    rw [String.toUTF8_eq_toByteArray, dif_pos content.isValidUTF8]
    rfl
  simp only [text, holds, valid]

inductive Draws [TextWidth] (files : Files) (glyphs : Glyphs) : Command → String → Prop
  | tree {path text : String} {style : TreeStyle} {root : Tree} :
      files.text path = .ok text → Tree.ofDump text = .ok root →
      Draws files glyphs (.tree path style) (root.draw glyphs style)
  | tokens {path text : String} {dump : TokenDump} :
      files.text path = .ok text → TokenDump.ofText text = .ok dump →
      Draws files glyphs (.tokens path none) (dump.draw glyphs)
  | tokensNamed {path named text names : String} {dump : TokenDump} {vocabulary : Vocabulary} :
      files.text path = .ok text → TokenDump.ofText text = .ok dump →
      files.text named = .ok names → Vocabulary.ofTokensFile names = .ok vocabulary →
      Draws files glyphs (.tokens path (some named))
        ({ dump with vocabulary := vocabulary }.draw glyphs)

theorem Draws.unique [TextWidth] {files : Files} {glyphs : Glyphs} {command : Command}
    {drawing other : String} (draws : files.Draws glyphs command drawing)
    (again : files.Draws glyphs command other) : drawing = other := by
  cases draws <;> cases again <;> simp_all

variable [Json.FaultPlaces]

/-- The stage fails, whatever becomes of the other stages. Text that could not be read is not
decoded or parsed. -/
inductive Fails (files : Files) : Command → Stage → Failure → Prop
  | readDump {command : Command} {fault : ReadFault} :
      files.text command.path = .error fault →
      Fails files command .readDump (.reading command.path fault)
  | decodeTree {path text : String} {style : TreeStyle} {fault : Json.Fault} :
      files.text path = .ok text → Tree.ofDump text = .error fault →
      Fails files (.tree path style) .decodeDump (.tree path fault (Json.placeOf text fault))
  | decodeTokens {path text : String} {named : Option String} {fault : Json.Fault} :
      files.text path = .ok text → TokenDump.ofText text = .error fault →
      Fails files (.tokens path named) .decodeDump (.tokens path fault (Json.placeOf text fault))
  | readVocabulary {path named : String} {fault : ReadFault} :
      files.text named = .error fault →
      Fails files (.tokens path (some named)) .readVocabulary (.reading named fault)
  | parseVocabulary {path named text : String} {fault : VocabularyFault} :
      files.text named = .ok text → Vocabulary.ofTokensFile text = .error fault →
      Fails files (.tokens path (some named)) .parseVocabulary (.vocabulary named fault)

def FirstFailure (files : Files) (command : Command) (failure : Failure) : Prop :=
  ∃ stage, files.Fails command stage failure ∧
    ∀ earlier other, earlier.rank < stage.rank → ¬files.Fails command earlier other

theorem Fails.unique {files : Files} {command : Command} {stage : Stage} {failure other : Failure}
    (fails : files.Fails command stage failure) (again : files.Fails command stage other) :
    failure = other := by
  cases fails <;> cases again <;> simp_all

theorem Draws.passes [TextWidth] {files : Files} {glyphs : Glyphs} {command : Command}
    {drawing : String} (draws : files.Draws glyphs command drawing) :
    ∀ stage failure, ¬files.Fails command stage failure := by
  intro stage failure fails
  cases draws <;> cases fails <;> simp_all [Command.path]

theorem FirstFailure.unique {files : Files} {command : Command} {failure other : Failure}
    (first : files.FirstFailure command failure) (again : files.FirstFailure command other) :
    failure = other := by
  obtain ⟨stage, fails, none⟩ := first
  obtain ⟨otherStage, otherFails, otherNone⟩ := again
  have ranks : stage.rank = otherStage.rank :=
    Nat.le_antisymm (Nat.le_of_not_lt fun earlier => none _ _ earlier otherFails)
      (Nat.le_of_not_lt fun earlier => otherNone _ _ earlier fails)
  obtain rfl : stage = otherStage := by
    cases stage <;> cases otherStage <;> simp_all [Stage.rank]
  exact fails.unique otherFails

theorem exists_firstFailure {files : Files} {command : Command} {stage : Stage} {failure : Failure}
    (fails : files.Fails command stage failure) :
    ∃ failure, files.FirstFailure command failure := by
  -- A stage that fails sooner takes the place of this one, and its rank is lower.
  induction position : stage.rank using Nat.strongRecOn generalizing stage failure with
  | ind rank ih =>
      subst position
      by_cases sooner : ∃ earlier other,
          earlier.rank < stage.rank ∧ files.Fails command earlier other
      · obtain ⟨earlier, other, before, fails⟩ := sooner
        exact ih earlier.rank before fails rfl
      · exact ⟨failure, stage, fails, fun earlier other before fails =>
          sooner ⟨earlier, other, before, fails⟩⟩

theorem exists_text {files : Files} {command : Command}
    (passes : ∀ failure, ¬files.Fails command .readDump failure) :
    ∃ text, files.text command.path = .ok text := by
  cases read : files.text command.path with
  | error fault => exact absurd (.readDump read) (passes _)
  | ok text => exact ⟨text, rfl⟩

theorem exists_tree {files : Files} {path text : String} {style : TreeStyle}
    (passes : ∀ failure, ¬files.Fails (.tree path style) .decodeDump failure)
    (read : files.text path = .ok text) : ∃ root, Tree.ofDump text = .ok root := by
  cases decoded : Tree.ofDump text with
  | error fault => exact absurd (.decodeTree read decoded) (passes _)
  | ok root => exact ⟨root, rfl⟩

theorem exists_dump {files : Files} {path text : String} {named : Option String}
    (passes : ∀ failure, ¬files.Fails (.tokens path named) .decodeDump failure)
    (read : files.text path = .ok text) : ∃ dump, TokenDump.ofText text = .ok dump := by
  cases decoded : TokenDump.ofText text with
  | error fault => exact absurd (.decodeTokens read decoded) (passes _)
  | ok dump => exact ⟨dump, rfl⟩

theorem exists_tokens {files : Files} {path : String} {named : Option String}
    (passes : ∀ earlier other, earlier.rank < Stage.readVocabulary.rank →
      ¬files.Fails (.tokens path named) earlier other) :
    ∃ text dump, files.text path = .ok text ∧ TokenDump.ofText text = .ok dump := by
  obtain ⟨text, read⟩ := exists_text fun other => passes .readDump other (by decide)
  obtain ⟨dump, decoded⟩ := exists_dump (fun other => passes .decodeDump other (by decide)) read
  exact ⟨text, dump, read, decoded⟩

theorem exists_vocabulary {files : Files} {path named : String}
    (passes : ∀ stage failure, ¬files.Fails (.tokens path (some named)) stage failure) :
    ∃ names vocabulary, files.text named = .ok names ∧
      Vocabulary.ofTokensFile names = .ok vocabulary := by
  cases read : files.text named with
  | error fault => exact absurd (.readVocabulary read) (passes _ _)
  | ok names =>
      cases parsed : Vocabulary.ofTokensFile names with
      | error fault => exact absurd (.parseVocabulary read parsed) (passes _ _)
      | ok vocabulary => exact ⟨names, vocabulary, rfl, parsed⟩

theorem exists_draws [TextWidth] {files : Files} {command : Command}
    (passes : ∀ stage failure, ¬files.Fails command stage failure) (glyphs : Glyphs) :
    ∃ drawing, files.Draws glyphs command drawing := by
  cases command with
  | tree path style =>
      obtain ⟨text, read⟩ := exists_text (passes .readDump)
      obtain ⟨root, decoded⟩ := exists_tree (passes .decodeDump) read
      exact ⟨_, .tree read decoded⟩
  | tokens path named =>
      obtain ⟨text, dump, read, decoded⟩ :=
        exists_tokens fun earlier other _ => passes earlier other
      cases named with
      | none => exact ⟨_, .tokens read decoded⟩
      | some named =>
          obtain ⟨names, vocabulary, readNames, parsed⟩ := exists_vocabulary passes
          exact ⟨_, .tokensNamed read decoded readNames parsed⟩

end Files

inductive Describes : Json.Fault → Option Json.Place → String → Prop
  | unplaced (fault : Json.Fault) : Describes fault none fault.message
  | placed (fault : Json.Fault) (line column : Nat) :
      Describes fault (some ⟨line, column⟩)
        (fault.message ++ " at line " ++ toString line ++ " column " ++ toString column)

/-- How a failure is reported: the stage and its file, and the causes below. A dump that cannot be
decoded has two of them, which are numbered. -/
inductive Reports : Failure → String → Prop
  | reading (path : String) (fault : ReadFault) :
      Reports (.reading path fault)
        ("Error: failed to read `" ++ path ++ "`\n\nCaused by:\n    " ++ fault.message ++ "\n")
  | tree (path : String) {fault : Json.Fault} {place : Option Json.Place} {description : String} :
      Describes fault place description →
      Reports (.tree path fault place)
        ("Error: failed to load tree from `" ++ path ++ "`\n\nCaused by:\n" ++
          "    0: malformed dump: " ++ description ++ "\n    1: " ++ description ++ "\n")
  | tokens (path : String) {fault : Json.Fault} {place : Option Json.Place} {description : String} :
      Describes fault place description →
      Reports (.tokens path fault place)
        ("Error: failed to load tokens from `" ++ path ++ "`\n\nCaused by:\n" ++
          "    0: malformed dump: " ++ description ++ "\n    1: " ++ description ++ "\n")
  | vocabulary (path : String) (fault : VocabularyFault) :
      Reports (.vocabulary path fault)
        ("Error: failed to load vocabulary from `" ++ path ++ "`\n\nCaused by:\n" ++
          "    vocabulary line " ++ toString fault.line ++ ": " ++ fault.fault.message ++ "\n")

theorem Describes.unique {fault : Json.Fault} {place : Option Json.Place} {text other : String}
    (described : Describes fault place text) (again : Describes fault place other) :
    text = other := by
  cases described <;> cases again <;> rfl

theorem Reports.unique {failure : Failure} {text other : String} (reported : Reports failure text)
    (again : Reports failure other) : text = other := by
  cases reported with
  | reading => cases again; rfl
  | tree _ described =>
      cases again with
      | tree _ otherDescribed => rw [described.unique otherDescribed]
  | tokens _ described =>
      cases again with
      | tokens _ otherDescribed => rw [described.unique otherDescribed]
  | vocabulary => cases again; rfl

theorem describes_messageAt (fault : Json.Fault) (place : Option Json.Place) :
    Describes fault place (fault.messageAt place) := by
  cases place with
  | none => exact .unplaced fault
  | some place => exact .placed fault place.line place.column

theorem toList_report_of_one {failure : Failure} {context cause : String}
    (stage : failure.context = context) (single : failure.causes = [cause]) :
    failure.report.toList =
      ("Error: " ++ context ++ "\n\nCaused by:\n    " ++ cause ++ "\n").toList := by
  simp [Failure.report, stage, single, Failure.causeLines]

theorem toList_report_of_two {failure : Failure} {context outer inner : String}
    (stage : failure.context = context) (both : failure.causes = [outer, inner]) :
    failure.report.toList = ("Error: " ++ context ++ "\n\nCaused by:\n    0: " ++ outer ++
      "\n    1: " ++ inner ++ "\n").toList := by
  have zero : Nat.repr 0 = "0" := rfl
  have one : Nat.repr 1 = "1" := rfl
  simp [Failure.report, stage, both, Failure.causeLines, zero, one]

theorem Reports.of_toList_eq {failure : Failure} {text other : String}
    (reported : Reports failure text) (same : other.toList = text.toList) : Reports failure other :=
  String.toList_inj.mp same ▸ reported

theorem reports_report (failure : Failure) : Reports failure failure.report := by
  cases failure with
  | reading path fault =>
      have stage : (Failure.reading path fault).context = "failed to read `" ++ path ++ "`" := rfl
      refine (Reports.reading path fault).of_toList_eq ?_
      rw [toList_report_of_one stage rfl]
      simp
  | tree path fault place =>
      have stage : (Failure.tree path fault place).context =
          "failed to load tree from `" ++ path ++ "`" := rfl
      have both : (Failure.tree path fault place).causes =
          ["malformed dump: " ++ fault.messageAt place, fault.messageAt place] := rfl
      refine (Reports.tree path (describes_messageAt fault place)).of_toList_eq ?_
      rw [toList_report_of_two stage both]
      simp
  | tokens path fault place =>
      have stage : (Failure.tokens path fault place).context =
          "failed to load tokens from `" ++ path ++ "`" := rfl
      have both : (Failure.tokens path fault place).causes =
          ["malformed dump: " ++ fault.messageAt place, fault.messageAt place] := rfl
      refine (Reports.tokens path (describes_messageAt fault place)).of_toList_eq ?_
      rw [toList_report_of_two stage both]
      simp
  | vocabulary path fault =>
      have stage : (Failure.vocabulary path fault).context =
          "failed to load vocabulary from `" ++ path ++ "`" := rfl
      have single : (Failure.vocabulary path fault).causes =
          ["vocabulary line " ++ toString fault.line ++ ": " ++ fault.fault.message] := rfl
      refine (Reports.vocabulary path fault).of_toList_eq ?_
      rw [toList_report_of_one stage single]
      simp

end ParseView.CommandLine
