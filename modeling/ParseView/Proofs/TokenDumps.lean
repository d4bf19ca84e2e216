import Mathlib.Data.List.Nodup
import Mathlib.Data.List.Permutation
import ParseView.Proofs.JsonRecords
import ParseView.Proofs.TreeDumps
import ParseView.Token.Dump

/-! Token dumps are read back as the tables and tokens that they were made of, whatever the order
of their members is. -/

namespace ParseView

open Json

theorem Json.integral_ofOption {α : Type} {convert : α → Json} (content : Option α)
    (integral : ∀ value ∈ content, (convert value).Integral) :
    (ofOption convert content).Integral := by
  cases content with
  | none => exact .null
  | some value => exact integral value rfl

namespace Vocabulary

theorem reads_names (names : List (Option String)) :
    Json.Reads readNames (namesToJson names) (.ok names) := by
  refine reads_expectList names ?_ ?_
  · intro name _
    exact integral_ofOption name fun value _ => .text value
  · intro name _
    refine reads_expectOption name ?_ ?_
    · intro value _
      exact reads_expectText value
    · intro value _
      exact startsUnlikeNull_text value

theorem reads_toJson (vocabulary : Vocabulary) :
    Json.Reads read vocabulary.toJson (.ok vocabulary) := by
  have symbolic := RecordType.run_enter (reads_names vocabulary.symbolic) "symbolic"
    fun met => ({ symbolic := met } : Fields)
  have literal := RecordType.run_enter (reads_names vocabulary.literal) "literal"
    fun met => ({ symbolic := some vocabulary.symbolic, literal := met } : Fields)
  have gathers : Gathers readMember {} [("symbolic", namesToJson vocabulary.symbolic),
      ("literal", namesToJson vocabulary.literal)]
      (.ok ⟨some vocabulary.symbolic, some vocabulary.literal⟩) := by
    refine .read symbolic ?_
    refine .read literal ?_
    exact .done _
  exact RecordType.reads_object recordType readInOrder ofFields gathers

end Vocabulary

namespace Channels

def tableToJson (names : List String) (columns : List (Option Nat)) : Json :=
  .object [("names", .list (names.map Json.text)),
    ("map", .list (columns.map (Json.ofOption Json.ofNat)))]

theorem reads_names (names : List String) :
    Reads readNames (.list (names.map Json.text)) (.ok names) := by
  refine reads_expectList names ?_ ?_
  · intro name _
    exact .text name
  · intro name _
    exact reads_expectText name

theorem reads_columns (columns : List (Option Nat))
    (fits : ∀ column, some column ∈ columns → column < UInt64.size) :
    Reads readColumns (.list (columns.map (ofOption ofNat))) (.ok columns) := by
  refine reads_expectList columns ?_ ?_
  · intro entry among
    refine integral_ofOption entry ?_
    rintro column rfl
    have small := fits column among
    exact .integer (by omega) (by omega)
  · intro entry among
    refine reads_expectOption entry ?_ ?_
    · rintro column rfl
      exact reads_expectNatural .index (fits column among) (Nat.le_refl _)
    · intro column _
      exact startsUnlikeNull_ofNat column

theorem reads_table (names : List String) (columns : List (Option Nat))
    (fits : ∀ column, some column ∈ columns → column < UInt64.size) :
    Reads read (tableToJson names columns) ((ofNames names columns).mapError .channel) := by
  have shown := RecordType.run_enter (reads_names names) "names"
    fun met => ({ names := met } : Fields)
  have sent := RecordType.run_enter (reads_columns columns fits) "map"
    fun met => ({ names := some names, columns := met } : Fields)
  have gathers : Gathers readMember {} [("names", .list (names.map Json.text)),
      ("map", .list (columns.map (Json.ofOption Json.ofNat)))]
      (.ok ⟨some names, some columns⟩) := by
    refine .read shown ?_
    refine .read sent ?_
    exact .done _
  have record := RecordType.reads_object recordType readInOrder ofFields gathers
  intro rest ends
  exact run_check (record rest ends) fun table => (ofNames table.1 table.2).mapError .channel

end Channels

namespace Token

theorem integral_toJson (token : Token) : token.toJson.Integral := by
  refine .object ?_
  simp [integral_ofWord, Integral.text]

theorem reads_toJson (token : Token) : Reads read token.toJson (.ok token) := by
  have kind := RecordType.run_enter (reads_expectWord token.kind) "kind"
    fun met => ({ kind := met } : Fields)
  have channel := RecordType.run_enter (reads_expectWord token.channel) "channel"
    fun met => ({ kind := some token.kind, channel := met } : Fields)
  have line := RecordType.run_enter (reads_expectWord token.line) "line"
    fun met => ({ kind := some token.kind, channel := some token.channel, line := met } : Fields)
  have column := RecordType.run_enter (reads_expectWord token.column) "column"
    fun met => (⟨some token.kind, some token.channel, some token.line, met, none⟩ : Fields)
  have text := RecordType.run_enter (reads_expectText token.text) "text"
    fun met => (⟨some token.kind, some token.channel, some token.line, some token.column, met⟩ :
      Fields)
  have gathers : Gathers readMember {} [("kind", .ofWord token.kind),
      ("channel", .ofWord token.channel), ("line", .ofWord token.line),
      ("column", .ofWord token.column), ("text", .text token.text)]
      (.ok ⟨some token.kind, some token.channel, some token.line, some token.column,
        some token.text⟩) := by
    refine .read kind ?_
    refine .read channel ?_
    refine .read line ?_
    refine .read column ?_
    refine .read text ?_
    exact .done _
  exact RecordType.reads_object recordType readInOrder ofFields gathers

end Token

namespace TokenDump

theorem reads_tokens (tokens : List Token) :
    Reads readTokens (tokensToJson tokens) (.ok tokens) := by
  refine reads_expectList tokens ?_ ?_
  · intro token _
    exact token.integral_toJson
  · intro token _
    exact token.reads_toJson

/-- A member of a token dump. Its channels need not fit together. -/
inductive Part where
  | vocabulary (table : Vocabulary)
  | channels (names : List String) (columns : List (Option Nat))
  | tokens (stream : List Token)

namespace Part

def member : Part → String × Json
  | .vocabulary table => ("vocabulary", table.toJson)
  | .channels names columns => ("channels", Channels.tableToJson names columns)
  | .tokens stream => ("tokens", tokensToJson stream)

def Fits : Part → Prop
  | .channels _ columns => ∀ column, some column ∈ columns → column < UInt64.size
  | _ => True

def Missing (fields : Fields) : Part → Prop
  | .vocabulary _ => fields.vocabulary = none
  | .channels _ _ => fields.channels = none
  | .tokens _ => fields.tokens = none

def enter : Part → Fields → Except Fault Fields
  | .vocabulary table, fields => .ok { fields with vocabulary := some table }
  | .channels names columns, fields =>
      (fun table => { fields with channels := some table }) <$>
        (Channels.ofNames names columns).mapError Fault.channel
  | .tokens stream, fields => .ok { fields with tokens := some stream }

theorem enter_channels_of_ok {names : List String} {columns : List (Option Nat)}
    {table : Channels} (made : Channels.ofNames names columns = .ok table) (fields : Fields) :
    (channels names columns).enter fields = .ok { fields with channels := some table } := by
  rw [enter, made]
  rfl

theorem enter_channels_of_error {names : List String} {columns : List (Option Nat)}
    {fault : ChannelFault} (refused : Channels.ofNames names columns = .error fault)
    (fields : Fields) : (channels names columns).enter fields = .error (.channel fault) := by
  rw [enter, refused]
  rfl

theorem run_readMember (part : Part) (fits : part.Fits) (fields : Fields)
    (missing : part.Missing fields) (rest : List Char) (ends : EndsNumber rest) :
    (readMember part.member.1 fields).run (':' :: part.member.2.characters ++ rest) =
      (fun entered => (entered, rest)) <$> part.enter fields := by
  obtain ⟨table, channels, tokens⟩ := fields
  cases part with
  | vocabulary entered =>
      obtain rfl : table = none := missing
      exact RecordType.run_enter entered.reads_toJson "vocabulary"
        (fun met => (⟨met, channels, tokens⟩ : Fields)) rest ends
  | channels names columns =>
      obtain rfl : channels = none := missing
      rw [enter, Functor.map_map]
      exact RecordType.run_enter (Channels.reads_table names columns fits) "channels"
        (fun met => (⟨table, met, tokens⟩ : Fields)) rest ends
  | tokens entered =>
      obtain rfl : tokens = none := missing
      exact RecordType.run_enter (reads_tokens entered) "tokens"
        (fun met => (⟨table, channels, met⟩ : Fields)) rest ends

theorem missing_of_enter {part other : Part} (different : part.member.1 ≠ other.member.1)
    {fields entered : Fields} (enters : part.enter fields = .ok entered)
    (missing : other.Missing fields) : other.Missing entered := by
  cases part with
  | vocabulary table =>
      obtain rfl := Except.ok.inj enters
      cases other with
      | vocabulary => exact absurd rfl different
      | channels => exact missing
      | tokens => exact missing
  | channels names columns =>
      cases made : Channels.ofNames names columns with
      | error fault =>
          rw [enter_channels_of_error made] at enters
          simp at enters
      | ok table =>
          rw [enter_channels_of_ok made] at enters
          obtain rfl := Except.ok.inj enters
          cases other with
          | vocabulary => exact missing
          | channels => exact absurd rfl different
          | tokens => exact missing
  | tokens stream =>
      obtain rfl := Except.ok.inj enters
      cases other with
      | vocabulary => exact missing
      | channels => exact missing
      | tokens => exact absurd rfl different

theorem enter_channels_comm (names : List String) (columns : List (Option Nat)) {other : Part}
    (different : "channels" ≠ other.member.1) (fields : Fields) :
    (channels names columns).enter fields >>= other.enter =
      other.enter fields >>= (channels names columns).enter := by
  cases other with
  | vocabulary table =>
      simp only [ok_bind, enter]
      cases (Channels.ofNames names columns).mapError Fault.channel <;> rfl
  | channels => exact absurd rfl different
  | tokens stream =>
      simp only [ok_bind, enter]
      cases (Channels.ofNames names columns).mapError Fault.channel <;> rfl

theorem enter_comm {part other : Part} (different : part.member.1 ≠ other.member.1)
    (entered : Except Fault Fields) :
    (entered >>= part.enter) >>= other.enter = (entered >>= other.enter) >>= part.enter := by
  cases entered with
  | error fault => rfl
  | ok fields =>
      -- Only channels can be refused, and they are entered once.
      cases part with
      | channels names columns => exact enter_channels_comm names columns different fields
      | vocabulary table =>
          cases other with
          | vocabulary => exact absurd rfl different
          | channels names columns =>
              exact (enter_channels_comm names columns different.symm fields).symm
          | tokens => rfl
      | tokens stream =>
          cases other with
          | vocabulary => rfl
          | channels names columns =>
              exact (enter_channels_comm names columns different.symm fields).symm
          | tokens => exact absurd rfl different

end Part

def enterAll (parts : List Part) (entered : Except Fault Fields) : Except Fault Fields :=
  parts.foldl (fun entered part => entered >>= part.enter) entered

theorem enterAll_error (parts : List Part) (fault : Fault) :
    enterAll parts (.error fault) = .error fault := by
  induction parts with
  | nil => rfl
  | cons part rest ih => exact ih

def partNames (parts : List Part) : List String :=
  parts.map fun part => part.member.1

theorem gathers_parts (parts : List Part) (fits : ∀ part ∈ parts, part.Fits)
    (distinct : (partNames parts).Nodup) (fields : Fields)
    (missing : ∀ part ∈ parts, part.Missing fields) :
    Gathers readMember fields (parts.map Part.member) (enterAll parts (.ok fields)) := by
  -- What has been entered stays general; only the parts still to come must be missing from it.
  induction parts generalizing fields with
  | nil => exact .done fields
  | cons part rest ih =>
      obtain ⟨fresh, distinct⟩ := List.nodup_cons.mp distinct
      have step := part.run_readMember (fits part (by simp)) fields (missing part (by simp))
      cases enters : part.enter fields with
      | error fault =>
          rw [enters] at step
          have outcome : enterAll (part :: rest) (.ok fields) = .error fault := by
            change enterAll rest (part.enter fields) = .error fault
            rw [enters, enterAll_error]
          rw [outcome]
          exact .refused step
      | ok entered =>
          rw [enters] at step
          have outcome : enterAll (part :: rest) (.ok fields) = enterAll rest (.ok entered) := by
            change enterAll rest (part.enter fields) = enterAll rest (.ok entered)
            rw [enters]
          rw [outcome]
          refine .read step
            (ih (fun other among => fits other (by simp [among])) distinct entered ?_)
          intro other among
          have different : part.member.1 ≠ other.member.1 := by
            intro same
            exact fresh (List.mem_map.mpr ⟨other, among, same.symm⟩)
          exact Part.missing_of_enter different enters (missing other (by simp [among]))

theorem enterAll_perm {parts ordered : List Part} (order : ordered.Perm parts)
    (distinct : (partNames parts).Nodup) (entered : Except Fault Fields) :
    enterAll ordered entered = enterAll parts entered := by
  refine order.foldl_eq' ?_ entered
  intro part member other among entered
  by_cases same : part = other
  · rw [same]
  · have different : part.member.1 ≠ other.member.1 := by
      intro alike
      exact same (List.inj_on_of_nodup_map distinct (order.mem_iff.mp member)
        (order.mem_iff.mp among) alike)
    exact Part.enter_comm different entered

theorem ofText_eq_of_reads {members : List (String × Json)} {outcome : Except Fault TokenDump}
    (reads : Reads read (.object members) outcome) :
    ofText (Json.object members).compact = outcome := by
  have run := reads [] (by simp [EndsNumber])
  rw [List.append_nil] at run
  have shown : (Json.object members).compact.toList = (Json.object members).characters := by
    rw [compact, String.toList_ofList]
  rw [← shown] at run
  cases outcome with
  | ok dump => exact readDocument_of_ok run
  | error fault => exact readDocument_of_error run

theorem exists_perm_of_perm_map {α β : Type} {convert : α → β} {items : List α} {images : List β}
    (order : images.Perm (items.map convert)) :
    ∃ ordered : List α, ordered.Perm items ∧ ordered.map convert = images := by
  rw [← List.mem_permutations, ← List.map_permutations, List.mem_map] at order
  obtain ⟨ordered, among, rfl⟩ := order
  exact ⟨ordered, List.mem_permutations.mp among, rfl⟩

/-- The order of the members makes no difference. -/
theorem ofText_of_perm {members : List (String × Json)} {parts : List Part}
    (order : members.Perm (parts.map Part.member)) (fits : ∀ part ∈ parts, part.Fits)
    (distinct : (partNames parts).Nodup) :
    ofText (Json.object members).compact = enterAll parts (.ok {}) >>= ofFields := by
  obtain ⟨ordered, permuted, rfl⟩ := exists_perm_of_perm_map order
  have distinctOrdered : (partNames ordered).Nodup := (permuted.map _).nodup_iff.mpr distinct
  have fitsOrdered : ∀ part ∈ ordered, part.Fits :=
    fun part among => fits part (permuted.mem_iff.mp among)
  have missing : ∀ part ∈ ordered, part.Missing {} := by
    intro part _
    cases part <;> rfl
  have gathers := gathers_parts ordered fitsOrdered distinctOrdered {} missing
  rw [enterAll_perm permuted distinct] at gathers
  exact ofText_eq_of_reads (RecordType.reads_object recordType readInOrder ofFields gathers)

def partsOf (vocabulary : Option Vocabulary) (channels : Option Channels) (tokens : List Token) :
    List Part :=
  vocabulary.toList.map Part.vocabulary ++
    channels.toList.map (fun table => .channels table.names table.columns) ++ [.tokens tokens]

theorem enterAll_partsOf (vocabulary : Option Vocabulary) (channels : Option Channels)
    (tokens : List Token) :
    enterAll (partsOf vocabulary channels tokens) (.ok {}) =
      .ok ⟨vocabulary, channels, some tokens⟩ := by
  have made (table : Channels) : Channels.ofNames table.names table.columns = .ok table := by
    rw [Channels.ofNames_eq_ok_iff]
    exact ⟨rfl, rfl⟩
  cases vocabulary with
  | none =>
      cases channels with
      | none => rfl
      | some table => exact congrArg (· >>= _) (Part.enter_channels_of_ok (made table) _)
  | some vocabulary =>
      cases channels with
      | none => rfl
      | some table => exact congrArg (· >>= _) (Part.enter_channels_of_ok (made table) _)

theorem nodup_partNames_partsOf (vocabulary : Option Vocabulary) (channels : Option Channels)
    (tokens : List Token) : (partNames (partsOf vocabulary channels tokens)).Nodup := by
  cases vocabulary <;> cases channels <;> simp [partsOf, partNames, Part.member]

theorem ofText_of_parts (vocabulary : Option Vocabulary) (channels : Option Channels)
    (tokens : List Token)
    (fits : ∀ table ∈ channels, ∀ column, some column ∈ table.columns → column < UInt64.size)
    {members : List (String × Json)}
    (order : members.Perm ((partsOf vocabulary channels tokens).map Part.member)) :
    ofText (Json.object members).compact =
      .ok ⟨vocabulary.getD {}, channels.getD .standard, tokens⟩ := by
  have partsFit : ∀ part ∈ partsOf vocabulary channels tokens, part.Fits := by
    intro part among
    simp only [partsOf, List.mem_append, List.mem_map, Option.mem_toList, List.mem_singleton]
      at among
    rcases among with (⟨table, _, rfl⟩ | ⟨table, present, rfl⟩) | rfl
    · trivial
    · exact fits table present
    · trivial
  rw [ofText_of_perm order partsFit (nodup_partNames_partsOf vocabulary channels tokens),
    enterAll_partsOf]
  rfl

theorem toNat_lt_of_mem (columns : List (Option UInt64)) :
    ∀ column, some column ∈ columns.map (Option.map UInt64.toNat) → column < UInt64.size := by
  intro column member
  obtain ⟨entry, _, shown⟩ := List.mem_map.mp member
  obtain ⟨word, _, rfl⟩ := Option.map_eq_some_iff.mp shown
  exact word.toNat_lt

theorem column_lt_of_accepted {names : List String} {columns : List (Option UInt64)}
    {channels : Channels}
    (accepted : Channels.ofNames names (columns.map (Option.map UInt64.toNat)) = .ok channels) :
    ∀ column, some column ∈ channels.columns → column < UInt64.size := by
  rw [Channels.ofNames_eq_ok_iff] at accepted
  rw [accepted.2]
  exact toNat_lt_of_mem columns

/-- A token dump is read back from its parts in any order. A part that is left out is read as the
empty vocabulary or the standard channels. -/
theorem ofText_assembled {names : List String} {columns : List (Option UInt64)}
    {channels : Channels}
    (accepted : Channels.ofNames names (columns.map (Option.map UInt64.toNat)) = .ok channels)
    (vocabulary : Vocabulary) (tokens : List Token) :
    (∀ members, members.Perm [("vocabulary", vocabulary.toJson), ("channels", channels.toJson),
        ("tokens", tokensToJson tokens)] →
      ofText (Json.object members).compact = .ok ⟨vocabulary, channels, tokens⟩) ∧
    (∀ members, members.Perm [("channels", channels.toJson), ("tokens", tokensToJson tokens)] →
      ofText (Json.object members).compact = .ok ⟨{}, channels, tokens⟩) ∧
    (∀ members, members.Perm [("vocabulary", vocabulary.toJson), ("tokens", tokensToJson tokens)] →
      ofText (Json.object members).compact = .ok ⟨vocabulary, .standard, tokens⟩) ∧
    ∀ members, members.Perm [("tokens", tokensToJson tokens)] →
      ofText (Json.object members).compact = .ok ⟨{}, .standard, tokens⟩ := by
  have fits : ∀ table ∈ some channels, ∀ column, some column ∈ table.columns →
      column < UInt64.size := by
    rintro table ⟨⟩
    exact column_lt_of_accepted accepted
  refine ⟨?_, ?_, ?_, ?_⟩
  · intro members order
    exact ofText_of_parts (some vocabulary) (some channels) tokens fits order
  · intro members order
    exact ofText_of_parts none (some channels) tokens fits order
  · intro members order
    exact ofText_of_parts (some vocabulary) none tokens nofun order
  · intro members order
    exact ofText_of_parts none none tokens nofun order

theorem ofText_assembled_reordered :
    let columns : List (Option UInt64) := [some 1, none, some 0]
    let vocabulary : Vocabulary := { symbolic := [none, some "a\\b"], literal := [some "'\n'"] }
    let tokens : List Token := [⟨4294967295, 2, 1, 0, "\t⍽"⟩, ⟨0, 0, 4294967295, 7, ""⟩]
    ∃ channels, Channels.ofNames ["\"A\"", "β"] (columns.map (Option.map UInt64.toNat)) =
        .ok channels ∧
      ofText (Json.object [("tokens", tokensToJson tokens), ("vocabulary", vocabulary.toJson),
        ("channels", channels.toJson)]).compact = .ok ⟨vocabulary, channels, tokens⟩ ∧
      ofText (Json.object
        [("tokens", tokensToJson tokens), ("channels", channels.toJson)]).compact =
        .ok ⟨{}, channels, tokens⟩ := by
  intro columns vocabulary tokens
  let channels : Channels := ⟨["\"A\"", "β"], [some 1, none, some 0], by simp⟩
  have accepted : Channels.ofNames ["\"A\"", "β"] (columns.map (Option.map UInt64.toNat)) =
      .ok channels := by
    rw [Channels.ofNames_eq_ok_iff]
    exact ⟨rfl, rfl⟩
  obtain ⟨complete, unnamed, _, _⟩ := ofText_assembled accepted vocabulary tokens
  exact ⟨channels, accepted, complete _ (@List.perm_append_comm _ [_] [_, _]),
    unnamed _ (.swap _ _ _)⟩

end TokenDump

end ParseView
