import ParseView.CommandLine.Streams
import ParseView.Proofs.LoadingStages
import ParseView.Proofs.SharedOptions
import ParseView.Proofs.TokenDumps
import ParseView.Proofs.TreeDumps

/-! What the command line prints and how it exits. -/

namespace ParseView.CommandLine

variable {m : Type → Type} [Monad m]

theorem throw_bind [LawfulMonad m] {α β : Type} (failure : Failure)
    (next : α → ExceptT Failure m β) :
    (throw failure >>= next) = throw failure :=
  ExceptT.ext (by simp)

structure Additive (put : String → m Unit) : Prop where
  empty : put "" = pure ()
  append : ∀ first second, put (first ++ second) = put first >>= fun _ => put second

theorem Additive.writeTo_eq [LawfulMonad m] {put : String → m Unit} (additive : Additive put)
    {Slot : Type} (fill : Slot → Char) (picture : Picture Slot) :
    picture.writeTo put fill = put (picture.draw fill) := by
  rw [← Picture.join_map_draw]
  unfold Picture.writeTo
  induction picture with
  | nil => exact additive.empty.symm
  | cons piece rest ih =>
      rw [List.map_cons, String.join_cons, additive.append, ← ih]
      rfl

theorem writeDrawing_eq [TextWidth] [Json.FaultPlaces] [LawfulMonad m] {put : String → m Unit}
    (additive : Additive put) (readFile : ReadFile m) (glyphs : Glyphs) (command : Command) :
    writeDrawing readFile put glyphs command =
      (draw readFile glyphs command >>= fun drawing => ExceptT.lift (put drawing)) := by
  cases command with
  | tree path style =>
      simp only [writeDrawing, draw, bind_assoc]
      congr 1
      funext text
      cases Tree.ofDump text with
      | error fault => exact (throw_bind _ _).symm
      | ok tree =>
          simp only [Tree.render_eq, additive.writeTo_eq, pure_bind]
          rfl
  | tokens path vocabularyPath =>
      simp only [writeDrawing, draw, bind_assoc]
      congr 1
      funext text
      cases TokenDump.ofText text with
      | error fault => exact (throw_bind _ _).symm
      | ok dump =>
          cases vocabularyPath with
          | none =>
              simp only [TokenTable.render_eq, additive.writeTo_eq, pure_bind]
              rfl
          | some vocabularyPath =>
              simp only [bind_assoc]
              congr 1
              funext text
              cases Vocabulary.ofTokensFile text with
              | error fault => exact (throw_bind _ _).symm
              | ok vocabulary =>
                  simp only [TokenTable.render_eq, additive.writeTo_eq, pure_bind]
                  rfl

/-- Nothing is written before everything is loaded. -/
theorem perform_eq_run [TextWidth] [Json.FaultPlaces] [LawfulMonad m] {streams : Streams m}
    (output : Additive streams.output) (errors : Additive streams.errors) (readFile : ReadFile m)
    (arguments : List String) :
    perform readFile streams arguments = do
      let outcome ← run readFile arguments
      streams.output outcome.output
      streams.errors outcome.errors
      return outcome.exitCode := by
  unfold perform run
  cases Invocation.ofArguments arguments with
  | error stop => simp only [pure_bind]
  | ok invocation =>
      simp only [writeDrawing_eq output, ExceptT.run_bind, bind_assoc]
      congr 1
      funext loaded
      cases loaded with
      | error failure => simp [Outcome.ofDrawing, output.empty]
      | ok drawing => simp [Outcome.ofDrawing, errors.empty]

theorem run_eq_run [TextWidth] [Json.FaultPlaces] {readFile : ReadFile m}
    {arguments others : List String} {invocation otherInvocation : Invocation}
    (asks : Asks arguments invocation) (otherAsks : Asks others otherInvocation)
    (sameCommand : withoutShared arguments = withoutShared others)
    (sameAscii : asksForAscii arguments = asksForAscii others) :
    run readFile arguments = run readFile others := by
  obtain ⟨ascii, bare⟩ := asks.withoutShared
  obtain ⟨otherAscii, otherBare⟩ := otherAsks.withoutShared
  have command : invocation.command = otherInvocation.command := by
    rw [sameCommand] at bare
    exact (Invocation.mk.inj (bare.unique otherBare)).2.2
  simp only [run, Invocation.ofArguments_eq_ok_iff.mpr asks,
    Invocation.ofArguments_eq_ok_iff.mpr otherAsks, ascii, otherAscii, sameAscii, command]

namespace Files

def read (files : Files) : ReadFile m := fun path => pure (files path)

section Loading

variable [LawfulMonad m] {files : Files} {path : String}

theorem readText_of_error {fault : ReadFault} (failed : files.text path = .error fault) :
    readText (files.read (m := m)) path = throw (.reading path fault) := by
  rw [text] at failed
  rw [readText, read]
  cases found : files path with
  | error other =>
      rw [found] at failed
      obtain rfl := Except.error.inj failed
      exact ExceptT.ext (by simp)
  | ok bytes =>
      simp only [found] at failed
      cases decoded : String.fromUTF8? bytes with
      | none =>
          simp only [decoded] at failed
          obtain rfl := Except.error.inj failed
          exact ExceptT.ext (by simp [decoded])
      | some content => simp [decoded] at failed

theorem readText_of_ok {content : String} (found : files.text path = .ok content) :
    readText (files.read (m := m)) path = pure content := by
  rw [text] at found
  rw [readText, read]
  cases shown : files path with
  | error fault => simp [shown] at found
  | ok bytes =>
      simp only [shown] at found
      cases decoded : String.fromUTF8? bytes with
      | none => simp [decoded] at found
      | some other =>
          simp only [decoded] at found
          obtain rfl := Except.ok.inj found
          exact ExceptT.ext (by simp [decoded])

variable [TextWidth] [Json.FaultPlaces]

theorem draw_of_firstFailure {command : Command} {failure : Failure}
    (first : files.FirstFailure command failure) (glyphs : Glyphs) :
    draw (files.read (m := m)) glyphs command = throw failure := by
  obtain ⟨stage, fails, passes⟩ := first
  cases fails with
  | readDump failed =>
      have unread := readText_of_error (m := m) failed
      cases command with
      | tree path style =>
          change readText _ path = _ at unread
          rw [draw, unread]
          exact throw_bind _ _
      | tokens path named =>
          change readText _ path = _ at unread
          rw [draw, unread]
          exact throw_bind _ _
  | decodeTree read failed => simp [draw, readText_of_ok read, failed]
  | decodeTokens read failed => simp [draw, readText_of_ok read, failed]
  | readVocabulary failed =>
      obtain ⟨text, dump, read, decoded⟩ := exists_tokens passes
      simp only [draw, readText_of_ok read, pure_bind, decoded, readText_of_error failed]
      exact throw_bind _ _
  | parseVocabulary readNames failed =>
      obtain ⟨text, dump, read, decoded⟩ :=
        exists_tokens fun earlier other before => passes earlier other (Nat.lt_succ_of_lt before)
      simp [draw, readText_of_ok read, decoded, readText_of_ok readNames, failed]

theorem draw_of_draws {glyphs : Glyphs} {command : Command} {drawing : String}
    (draws : files.Draws glyphs command drawing) :
    draw (files.read (m := m)) glyphs command = pure drawing := by
  cases draws with
  | tree read decoded => simp [draw, readText_of_ok read, decoded]
  | tokens read decoded => simp [draw, readText_of_ok read, decoded]
  | tokensNamed read decoded readNames parsed =>
      simp [draw, readText_of_ok read, decoded, readText_of_ok readNames, parsed]

end Loading

theorem run_eq_pure [TextWidth] [Json.FaultPlaces] [LawfulMonad m] (files : Files)
    (arguments : List String) :
    run (files.read (m := m)) arguments = pure (run (files.read (m := Id)) arguments).run := by
  unfold run
  cases Invocation.ofArguments arguments with
  | error stop => rfl
  | ok invocation =>
      dsimp only
      generalize (if invocation.ascii = true then Glyphs.ascii else Glyphs.unicode) = glyphs
      -- What the files hold decides how the loading ends, in this monad as in the other.
      by_cases passes : ∀ stage failure, ¬files.Fails invocation.command stage failure
      · obtain ⟨drawing, draws⟩ := exists_draws passes glyphs
        simp [draw_of_draws draws]
      · obtain ⟨stage, failure, fails⟩ : ∃ stage failure,
            files.Fails invocation.command stage failure := by simpa using passes
        obtain ⟨failure, first⟩ := exists_firstFailure fails
        simp [draw_of_firstFailure first]

end Files

structure Printed where
  output : String := ""
  errors : String := ""
deriving DecidableEq, Repr

namespace Printed

def streams : Streams (StateM Printed) where
  output text := modify fun printed => { printed with output := printed.output ++ text }
  errors text := modify fun printed => { printed with errors := printed.errors ++ text }

theorem additive_output : Additive streams.output where
  empty := by
    funext printed
    change ((), { printed with output := printed.output ++ "" }) = ((), printed)
    rw [String.append_empty]
  append first second := by
    funext printed
    change ((), { printed with output := printed.output ++ (first ++ second) }) =
      ((), { printed with output := printed.output ++ first ++ second })
    rw [String.append_assoc]

theorem additive_errors : Additive streams.errors where
  empty := by
    funext printed
    change ((), { printed with errors := printed.errors ++ "" }) = ((), printed)
    rw [String.append_empty]
  append first second := by
    funext printed
    change ((), { printed with errors := printed.errors ++ (first ++ second) }) =
      ((), { printed with errors := printed.errors ++ first ++ second })
    rw [String.append_assoc]

end Printed

namespace Files

section Performing

variable [TextWidth] [Json.FaultPlaces]

def perform (files : Files) (arguments : List String) : Nat × Printed :=
  (CommandLine.perform files.read Printed.streams arguments).run {}

theorem perform_eq (files : Files) (arguments : List String) :
    files.perform arguments =
      let outcome := (run (files.read (m := Id)) arguments).run
      (outcome.exitCode, ⟨outcome.output, outcome.errors⟩) := by
  rw [perform, perform_eq_run Printed.additive_output Printed.additive_errors, run_eq_pure,
    pure_bind]
  generalize (run (files.read (m := Id)) arguments).run = outcome
  change (outcome.exitCode, (⟨"" ++ outcome.output, "" ++ outcome.errors⟩ : Printed)) = _
  rw [String.empty_append, String.empty_append]

variable {files : Files} {arguments : List String} {invocation : Invocation}

theorem perform_of_firstFailure (asks : Asks arguments invocation) {failure : Failure}
    (first : files.FirstFailure invocation.command failure) :
    files.perform arguments = (1, { output := "", errors := failure.report }) := by
  have accepted := Invocation.ofArguments_eq_ok_iff.mpr asks
  have ran : (run (files.read (m := Id)) arguments).run = .ofDrawing (.error failure) := by
    simp only [run, accepted, draw_of_firstFailure first]
    rfl
  rw [perform_eq, ran]
  rfl

theorem perform_of_draws (asks : Asks arguments invocation) {drawing : String}
    (draws : files.Draws (if invocation.ascii then .ascii else .unicode) invocation.command
      drawing) :
    files.perform arguments = (0, { output := drawing, errors := "" }) := by
  have accepted := Invocation.ofArguments_eq_ok_iff.mpr asks
  have ran : (run (files.read (m := Id)) arguments).run = .ofDrawing (.ok drawing) := by
    simp only [run, accepted, draw_of_draws draws]
    rfl
  rw [perform_eq, ran]
  rfl

/-- An accepted command line asks for one invocation, by its spelling. Either the first stage that
fails is reported and nothing is drawn, or the whole drawing is printed. It makes no difference
where the shared options stand, nor how often the log is asked for. -/
theorem prints_all_or_nothing (files : Files) {arguments : List String} {invocation : Invocation}
    (accepted : Invocation.ofArguments arguments = .ok invocation) :
    (∀ other, Asks arguments other ↔ other = invocation) ∧
    ((∃ stage failure, files.Fails invocation.command stage failure) →
      ∃ failure text, files.FirstFailure invocation.command failure ∧ Reports failure text ∧
        files.perform arguments = (1, { output := "", errors := text })) ∧
    ((∀ stage failure, ¬files.Fails invocation.command stage failure) →
      ∃ drawing, files.Draws (if invocation.ascii then .ascii else .unicode) invocation.command
          drawing ∧
        files.perform arguments = (0, { output := drawing, errors := "" })) ∧
    ∀ others otherInvocation, Invocation.ofArguments others = .ok otherInvocation →
      withoutShared others = withoutShared arguments →
      asksForAscii others = asksForAscii arguments →
      files.perform others = files.perform arguments := by
  have asks := Invocation.ofArguments_eq_ok_iff.mp accepted
  refine ⟨?_, ?_, ?_, ?_⟩
  · intro other
    constructor
    · exact fun again => again.unique asks
    · rintro rfl
      exact asks
  · rintro ⟨stage, failure, fails⟩
    obtain ⟨failure, first⟩ := exists_firstFailure fails
    exact ⟨failure, failure.report, first, reports_report failure,
      perform_of_firstFailure asks first⟩
  · intro passes
    obtain ⟨drawing, draws⟩ := exists_draws passes (if invocation.ascii then .ascii else .unicode)
    exact ⟨drawing, draws, perform_of_draws asks draws⟩
  · intro others otherInvocation otherAccepted sameCommand sameAscii
    have otherAsks := Invocation.ofArguments_eq_ok_iff.mp otherAccepted
    rw [perform_eq, perform_eq, run_eq_run otherAsks asks sameCommand sameAscii]

end Performing

section Samples

open scoped OneColumnEach Json.FaultsAtStart

def sampleTree : Tree := .node "a" [.node "b" [.leaf ⟨"x", some ⟨1, 2⟩⟩]]

def sampleTokens : List Token := [⟨1, 0, 1, 0, "x"⟩]

def sampleFiles : Files := fun path =>
  if path = "empty" then .ok "".toUTF8
  else if path = "tree" then .ok sampleTree.dump.toUTF8
  else if path = "tokens" then
    .ok (Json.object [("tokens", TokenDump.tokensToJson sampleTokens)]).compact.toUTF8
  else if path = "names" then .ok "ID=1".toUTF8
  else .error .missing

theorem firstFailure_sampleFiles :
    sampleFiles.FirstFailure (.tokens "empty" (some "none"))
      (.tokens "empty" .endInValue (some ⟨1, 0⟩)) := by
  have empty : sampleFiles.text "empty" = .ok "" := text_of_toUTF8 rfl
  refine ⟨.decodeDump, .decodeTokens empty rfl, ?_⟩
  intro earlier other before fails
  cases fails with
  | readDump failed => exact absurd (empty.symm.trans failed) (by simp)
  | decodeTokens => exact absurd before (by decide)
  | readVocabulary => exact absurd before (by decide)
  | parseVocabulary => exact absurd before (by decide)

theorem draws_sampleTree :
    sampleFiles.Draws .unicode (.tree "tree" ⟨.never, true⟩)
      ("(   1:2  ) ╮a╭\n           ╰┬╯\n(   1:2  )  ╰╮b╭\n" ++
        "             ╰┬╯\n(   1:2  )    ╰╴x\n") := by
  have decoded : Tree.ofDump sampleTree.dump = .ok sampleTree := by
    rw [Tree.ofDump_eq, if_pos (by decide)]
  have shown : sampleTree.draw .unicode ⟨.never, true⟩ =
      "(   1:2  ) ╮a╭\n           ╰┬╯\n(   1:2  )  ╰╮b╭\n" ++
        "             ╰┬╯\n(   1:2  )    ╰╴x\n" := by decide +kernel
  rw [← shown]
  exact .tree (text_of_toUTF8 rfl) decoded

theorem draws_sampleTokens :
    sampleFiles.Draws .ascii (.tokens "tokens" (some "names"))
      ("+-+---+---+-------+------+----+\n|#|lin|col|DEFAULT|HIDDEN|text|\n" ++
        "+-+---+---+-------+------+----+\n|1|  1|  0|ID     |      |x   |\n" ++
        "+-+---+---+-------+------+----+\n") := by
  have decoded : TokenDump.ofText
      (Json.object [("tokens", TokenDump.tokensToJson sampleTokens)]).compact =
        .ok ⟨{}, .standard, sampleTokens⟩ :=
    TokenDump.ofText_of_parts none none sampleTokens nofun (.refl _)
  have parsed : Vocabulary.ofTokensFile "ID=1" = .ok { symbolic := [none, some "ID"] } := by
    decide +kernel
  have shown :
      TokenDump.draw .ascii ⟨{ symbolic := [none, some "ID"] }, .standard, sampleTokens⟩ =
        "+-+---+---+-------+------+----+\n|#|lin|col|DEFAULT|HIDDEN|text|\n" ++
          "+-+---+---+-------+------+----+\n|1|  1|  0|ID     |      |x   |\n" ++
          "+-+---+---+-------+------+----+\n" := by decide +kernel
  have drawn : sampleFiles.Draws .ascii (.tokens "tokens" (some "names")) _ :=
    .tokensNamed (text_of_toUTF8 rfl) decoded (text_of_toUTF8 rfl) parsed
  dsimp only at drawn
  rwa [shown] at drawn

theorem prints_all_or_nothing_options :
    sampleFiles.Fails (.tokens "empty" (some "none")) .readVocabulary (.reading "none" .missing) ∧
      sampleFiles.perform ["--ascii", "-v", "tokens", "empty", "--vocabulary", "none", "-vv"] =
        (1, { errors := "Error: failed to load tokens from `empty`\n\nCaused by:\n" ++
          "    0: malformed dump: EOF while parsing a value at line 1 column 0\n" ++
          "    1: EOF while parsing a value at line 1 column 0\n" }) ∧
      sampleFiles.perform ["tokens", "--ascii", "empty", "--vocabulary", "none"] =
        sampleFiles.perform
          ["--ascii", "-v", "tokens", "empty", "--vocabulary", "none", "-vv"] ∧
      sampleFiles.perform ["tree", "--inline=never", "tree", "-v", "--positions"] =
        (0, { output := "(   1:2  ) ╮a╭\n           ╰┬╯\n(   1:2  )  ╰╮b╭\n" ++
          "             ╰┬╯\n(   1:2  )    ╰╴x\n" }) ∧
      sampleFiles.perform ["--ascii", "tokens", "--vocabulary", "names", "--", "tokens"] =
        (0, { output := "+-+---+---+-------+------+----+\n|#|lin|col|DEFAULT|HIDDEN|text|\n" ++
          "+-+---+---+-------+------+----+\n|1|  1|  0|ID     |      |x   |\n" ++
          "+-+---+---+-------+------+----+\n" }) := by
  have accepted : Invocation.ofArguments
      ["--ascii", "-v", "tokens", "empty", "--vocabulary", "none", "-vv"] =
        .ok ⟨true, 2, .tokens "empty" (some "none")⟩ := by decide +kernel
  have moved : Invocation.ofArguments ["tokens", "--ascii", "empty", "--vocabulary", "none"] =
      .ok ⟨true, 0, .tokens "empty" (some "none")⟩ := by decide +kernel
  have treeAccepted : Invocation.ofArguments
      ["tree", "--inline=never", "tree", "-v", "--positions"] =
        .ok ⟨false, 1, .tree "tree" ⟨.never, true⟩⟩ := by decide +kernel
  have tokensAccepted : Invocation.ofArguments
      ["--ascii", "tokens", "--vocabulary", "names", "--", "tokens"] =
        .ok ⟨true, 0, .tokens "tokens" (some "names")⟩ := by decide +kernel
  obtain ⟨_, failing, _, others⟩ := prints_all_or_nothing sampleFiles accepted
  obtain ⟨_, _, printsTree, _⟩ := prints_all_or_nothing sampleFiles treeAccepted
  obtain ⟨_, _, printsTokens, _⟩ := prints_all_or_nothing sampleFiles tokensAccepted
  refine ⟨.readVocabulary rfl, ?_, ?_, ?_, ?_⟩
  · obtain ⟨stage, fails, _⟩ := firstFailure_sampleFiles
    obtain ⟨failure, text, first, reported, performed⟩ := failing ⟨stage, _, fails⟩
    obtain rfl := first.unique firstFailure_sampleFiles
    have shown : text =
        "Error: failed to load tokens from `empty`\n\nCaused by:\n" ++
          "    0: malformed dump: EOF while parsing a value at line 1 column 0\n" ++
          "    1: EOF while parsing a value at line 1 column 0\n" :=
      (reported.unique (reports_report _)).trans (by decide +kernel)
    rw [performed, shown]
  · refine others _ _ moved ?_ (by simp [asksForAscii])
    simp [withoutShared, isShared]
  · obtain ⟨drawing, draws, printed⟩ := printsTree draws_sampleTree.passes
    rw [printed, draws.unique draws_sampleTree]
  · obtain ⟨drawing, draws, printed⟩ := printsTokens draws_sampleTokens.passes
    rw [printed, draws.unique draws_sampleTokens]

end Samples

end Files

end ParseView.CommandLine
