import ProtoTypings.Proofs.FieldConversion
import ProtoTypings.Proofs.Lines
import ProtoTypings.Proofs.Parameter
import ProtoTypings.Proofs.PluginCommand
import ProtoTypings.Proofs.Request

set_option autoImplicit false
set_option relaxedAutoImplicit false

/-!
The diagnostics of failed runs. Messages put some texts in quotes, where a line break is escaped, and
show others as they are: names of messages, extensions, services, methods and types, the parameter,
and the switches of the environment. A diagnostic is one line exactly if none of the texts that it
shows as they are has a line break.
-/

namespace ProtoTypings

open Result (FailsOnly)

private theorem Text.cutAt_subset (separator : UInt8) (s : Text) :
    (Text.cutAt separator s).1 ⊆ s := by
  unfold Text.cutAt
  split
  · exact List.Subset.refl s
  · exact (List.takeWhile_sublist _).subset

namespace Blank

private theorem dropAfter_subset (among : List Text) (skip : Nat) (s : Text) :
    dropAfter among skip s ⊆ s := by
  fun_induction dropAfter among skip s with
  | case1 skip => exact List.nil_subset _
  | case2 skip byte rest ih => exact List.subset_cons_of_subset byte ih
  | case3 byte rest none => exact List.Subset.refl _
  | case4 byte rest width found ih => exact List.subset_cons_of_subset byte ih

private theorem trim_subset (s : Text) : trim s ⊆ s := by
  intro byte member
  have inReverse := dropAfter_subset _ _ _ (List.mem_reverse.mp member)
  exact dropAfter_subset _ _ _ (List.mem_reverse.mp inReverse)

end Blank

namespace Fault

def OneLine (fault : Fault) : Prop := fault.message.OneLine

private theorem oneLine_of_bareTexts {fault : Fault}
    (shown : ∀ text ∈ fault.bareTexts, text.OneLine) :
    fault.OneLine := fault.oneLine_message.mpr shown

private theorem OneLine.because {inner : Fault} (oneLine : inner.OneLine) {reason : Text}
    (words : reason.OneLine) : OneLine (.malformedBy reason inner) := by
  have colon : Text.OneLine (": " : Text) := by decide
  exact Text.oneLine_append.mpr ⟨Text.oneLine_append.mpr ⟨words, colon⟩, oneLine⟩

private theorem Untypable.oneLine {fault : Fault} (untypable : fault.Untypable Text.OneLine) :
    fault.OneLine := oneLine_of_bareTexts untypable.bareTexts

private theorem Malformed.oneLine {fault : Fault} (malformed : fault.Malformed Text.OneLine) :
    fault.OneLine := by
  apply oneLine_of_bareTexts
  intro text member
  exact or_self_iff.mp (malformed.shown text member)

end Fault

namespace Options

private theorem oneLine_of_mem_parts {parameter part : Text} (oneLine : parameter.OneLine)
    (member : part ∈ parts parameter) : part.OneLine := by
  obtain ⟨trimmed, trimmedMember, rfl⟩ := List.mem_map.mp member
  obtain ⟨whole, wholeMember, rfl⟩ := List.mem_map.mp (List.mem_of_mem_filter trimmedMember)
  apply oneLine.of_subset
  intro byte inPart
  have inTrimmed : byte ∈ Blank.trim whole := (List.dropWhile_sublist _).subset inPart
  exact (Text.of_mem_split wholeMember).1 (Blank.trim_subset whole inTrimmed)

private theorem part_mem_of_mem_readings {parts : List Text} {reading : Reading}
    (member : reading ∈ readings parts) : reading.part ∈ parts := by
  fun_induction readings parts with
  | case1 => cases member
  | case2 rest => cases member
  | case3 part nonempty lone =>
    obtain rfl := List.mem_singleton.mp member
    exact List.mem_cons_self
  | case4 part nonempty lone next rest ih =>
    rcases List.mem_cons.mp member with rfl | later
    · exact List.mem_cons_self
    · exact List.mem_cons_of_mem part (List.mem_cons_of_mem next (ih later))
  | case5 part rest nonempty own ih =>
    rcases List.mem_cons.mp member with rfl | later
    · exact List.mem_cons_self
    · exact List.mem_cons_of_mem part (ih later)

private theorem oneLine_dashed {part : Text} (oneLine : part.OneLine) : (dashed part).OneLine :=
  Text.oneLine_append.mpr ⟨by decide, oneLine⟩

private theorem flagIn_oneLine {part : Text} (oneLine : part.OneLine) :
    FailsOnly Fault.OneLine (flagIn part) := by
  have cut := oneLine.of_subset (Text.cutAt_subset Text.equals part)
  rw [flagIn, parts_dashed]
  split
  · refine .bind (Result.failsOnly_error.mpr ?_) fun _ impossible => by cases impossible
    exact Fault.oneLine_of_bareTexts (List.forall_mem_singleton.mpr (oneLine_dashed oneLine))
  · refine .bind (Result.failsOnly_ok _) fun name found => ?_
    obtain rfl := Except.ok.inj found
    dsimp only
    split
    · refine Result.failsOnly_throw.mpr ?_
      split
      · exact Fault.oneLine_of_bareTexts (List.forall_mem_nil _)
      · exact Fault.oneLine_of_bareTexts (List.forall_mem_singleton.mpr cut)
    · exact Result.failsOnly_pure _

private theorem Reading.effect_oneLine {reading : Reading} (oneLine : reading.part.OneLine) :
    FailsOnly Fault.OneLine reading.effect := by
  rw [effect]
  refine .bind (flagIn_oneLine oneLine) fun flag _ => ?_
  split
  · exact Result.failsOnly_throw.mpr
      (Fault.oneLine_of_bareTexts (List.forall_mem_singleton.mpr (oneLine_dashed oneLine)))
  · rw [assign]
    split
    · exact Result.failsOnly_error.mpr (Fault.oneLine_of_bareTexts (List.forall_mem_nil _))
    · exact Result.failsOnly_ok _

private theorem ofParameter_oneLine {environment : Environment} {parameter : Text}
    (oneLine : parameter.OneLine)
    (switches : ∀ value, environment.SetsSwitch value → value.OneLine) :
    FailsOnly Fault.OneLine (ofParameter environment parameter) := by
  rw [ofParameter]
  refine .bind ?_ fun written _ => .bind ?_ fun changed _ => ?_
  · refine (WrittenOptions.ofEnvironment_fails environment).mono fun fault refused => ?_
    apply Fault.oneLine_of_bareTexts
    intro text member
    exact switches text (refused.2 text member)
  · rw [arguments_eq, WrittenOptions.setAll_eq]
    refine .map (.mapM fun reading member => ?_)
    exact Reading.effect_oneLine (oneLine_of_mem_parts oneLine (part_mem_of_mem_readings member))
  · refine changed.checked_fails.mono fun fault refused => ?_
    apply Fault.oneLine_of_bareTexts
    rw [refused.2]
    exact List.forall_mem_nil _

end Options

namespace Schema

section

variable {bare : Text → Prop}

private theorem MapEntry.shown_ofDescriptor {entry : Descriptor.Message} {map : MapEntry Field}
    (shown : ∀ raw ∈ entry.fields, bare raw.typeName)
    (converted : MapEntry.ofDescriptor entry = .ok map) :
    ∀ text ∈ (map.key.toList ++ map.value.toList).map Field.typeName, bare text := by
  obtain ⟨-, key, value, isKey, isValue, rfl⟩ := MapEntry.ofDescriptor_eq_ok.mp converted
  refine List.forall_mem_cons.mpr ⟨shown key isKey.mem, ?_⟩
  exact List.forall_mem_singleton.mpr (shown value isValue.mem)

private theorem Field.shown_ofDescriptor {oneofs : List Oneof}
    {findEntry : Text → Option Descriptor.Message} {comments : Text} {raw : Descriptor.Field}
    {field : Field} (own : bare raw.typeName)
    (entries : ∀ entry, findEntry raw.typeName = some entry →
      ∀ inner ∈ entry.fields, bare inner.typeName)
    (converted : Field.ofDescriptor oneofs findEntry comments raw = .ok field) :
    ∀ text ∈ field.bareTexts, bare text := by
  obtain ⟨oneof, -, ⟨-, rfl⟩ | ⟨entry, map, found, folds, rfl⟩⟩ :=
    Field.ofDescriptor_eq_ok_iff.mp converted
  · exact List.forall_mem_singleton.mpr own
  · obtain ⟨-, -, found⟩ := entryOf?_eq_some_iff.mp found
    exact List.forall_mem_cons.mpr ⟨own, MapEntry.shown_ofDescriptor (entries entry found) folds⟩

private theorem shown_extensionsOf {locations : List Descriptor.Location} {path : List Int}
    {list : Nat} {raws : List Descriptor.Field} {extensions : List Field}
    (shown : ∀ text ∈ raws.flatMap (fun raw => [raw.name, raw.typeName]), bare text)
    (converted : extensionsOf locations path list raws = .ok extensions) :
    ∀ text ∈ extensions.flatMap Field.extensionTexts, bare text := by
  rw [List.forall_mem_flatMap] at shown ⊢
  intro extension member
  obtain ⟨⟨raw, index⟩, indexed, made⟩ := Result.exists_of_mem_mapM converted member
  obtain ⟨-, rfl⟩ := Field.plain_nil_eq_ok.mp (Result.located_eq_ok.mp made)
  exact shown raw (List.fst_mem_of_mem_zipIdx indexed)

private theorem shown_fieldsOf {locations : List Descriptor.Location} {path : List Int}
    {oneofs : List Oneof} {fullName : Text} {nested : List Descriptor.Message}
    {raws : List Descriptor.Field} {fields : List Field}
    (shown : ∀ text ∈ raws.map Descriptor.Field.typeName, bare text)
    (nestedShown : ∀ text ∈ Descriptor.Message.bareTextsOfAll fullName nested, bare text)
    (converted : fieldsOf locations path oneofs (findMapEntry fullName nested) raws = .ok fields) :
    ∀ text ∈ fields.flatMap Field.bareTexts, bare text := by
  rw [List.forall_mem_map] at shown
  rw [Descriptor.Message.bareTextsOfAll_eq_flatMap, List.forall_mem_flatMap] at nestedShown
  rw [List.forall_mem_flatMap]
  intro field member
  obtain ⟨⟨raw, index⟩, indexed, made⟩ := Result.exists_of_mem_mapM converted member
  refine Field.shown_ofDescriptor (shown raw (List.fst_mem_of_mem_zipIdx indexed)) ?_
    (Result.located_eq_ok.mp made)
  intro entry found inner innerMember
  apply nestedShown entry (findMapEntry_eq_some_iff.mp found).mem
  cases entry
  simp only [Descriptor.Message.bareTexts, List.mem_cons, List.mem_append, List.mem_map]
  exact .inr (.inr (.inl ⟨inner, innerMember, rfl⟩))

mutual

private theorem Message.shown_ofDescriptor (locations : List Descriptor.Location) (scope : Text)
    (path : List Int) : ∀ (raw : Descriptor.Message) (message : Message),
      (∀ text ∈ raw.bareTexts scope, bare text) →
      Message.ofDescriptor locations scope path raw = .ok message →
      bare message.name ∧ ∀ text ∈ message.bareTexts, bare text
  | { name, fields, nested, extensions, .. }, message, shown, converted => by
    rw [Descriptor.Message.bareTexts, List.forall_mem_cons, List.forall_mem_cons,
      List.forall_mem_append, List.forall_mem_append] at shown
    obtain ⟨named, -, fieldsShown, nestedShown, extensionsShown⟩ := shown
    obtain ⟨_, fieldsMade, messages, messagesMade, _, extensionsMade, rfl⟩ :=
      Message.ofDescriptor_eq_ok_iff.mp converted
    refine ⟨named, ?_⟩
    rw [Message.bareTexts, List.forall_mem_append, List.forall_mem_append]
    refine ⟨shown_fieldsOf fieldsShown nestedShown fieldsMade, ?_,
      shown_extensionsOf extensionsShown extensionsMade⟩
    exact shown_nestedOf locations _ path 0 nested messages nestedShown messagesMade

private theorem shown_nestedOf (locations : List Descriptor.Location) (fullName : Text)
    (path : List Int) (index : Nat) :
    ∀ (raws : List Descriptor.Message) (messages : List Message),
      (∀ text ∈ Descriptor.Message.bareTextsOfAll fullName raws, bare text) →
      nestedOf locations fullName path index raws = .ok messages →
      ∀ text ∈ Message.bareTextsOfAll messages, bare text
  | [], messages, _, converted => by
    rw [nestedOf] at converted
    obtain rfl := Result.pure_eq_ok.mp converted
    exact List.forall_mem_nil _
  | raw :: rest, messages, shown, converted => by
    rw [Descriptor.Message.bareTextsOfAll, List.forall_mem_append] at shown
    obtain ⟨rawShown, restShown⟩ := shown
    rw [nestedOf] at converted
    split at converted
    · exact shown_nestedOf locations fullName path (index + 1) rest messages restShown converted
    · obtain ⟨first, firstMade, converted⟩ := Result.bind_eq_ok.mp converted
      obtain ⟨more, moreMade, converted⟩ := Result.bind_eq_ok.mp converted
      obtain rfl := Result.pure_eq_ok.mp converted
      obtain ⟨named, firstShown⟩ :=
        Message.shown_ofDescriptor locations fullName _ raw first rawShown firstMade
      rw [Message.bareTextsOfAll, List.forall_mem_cons, List.forall_mem_append]
      exact ⟨named, firstShown,
        shown_nestedOf locations fullName path (index + 1) rest more restShown moreMade⟩

end

private theorem Service.shown_ofDescriptor (locations : List Descriptor.Location) (scope : Text)
    (path : List Int) {raw : Descriptor.Service}
    (shown : ∀ text ∈ raw.methods.flatMap fun method => [raw.name, method.name], bare text) :
    ∀ text ∈ (Service.ofDescriptor locations scope path raw).bareTexts, bare text := by
  rw [List.forall_mem_flatMap] at shown
  rw [Service.bareTexts, List.forall_mem_flatMap]
  intro method member
  obtain ⟨⟨origin, index⟩, indexed, rfl⟩ := List.mem_map.mp member
  exact shown origin (List.fst_mem_of_mem_zipIdx indexed)

private theorem File.shown_ofDescriptor {raw : Descriptor.File} {file : File}
    (shown : ∀ text ∈ raw.bareTexts, bare text) (converted : File.ofDescriptor raw = .ok file) :
    ∀ text ∈ file.bareTexts, bare text := by
  rw [Descriptor.File.bareTexts, List.forall_mem_append, List.forall_mem_append,
    Descriptor.Message.bareTextsOfAll_eq_flatMap] at shown
  obtain ⟨messagesShown, extensionsShown, servicesShown⟩ := shown
  rw [List.forall_mem_flatMap] at messagesShown servicesShown
  obtain ⟨-, messages, messagesMade, extensions, extensionsMade, rfl⟩ :=
    File.ofDescriptor_eq_ok_iff.mp converted
  rw [File.bareTexts, List.forall_mem_append, List.forall_mem_append, Message.forall_bareTextsOfAll]
  refine ⟨?_, shown_extensionsOf extensionsShown extensionsMade, ?_⟩
  · intro message member
    obtain ⟨⟨origin, index⟩, indexed, made⟩ := Result.exists_of_mem_mapM messagesMade member
    exact Message.shown_ofDescriptor _ _ _ origin message
      (messagesShown origin (List.fst_mem_of_mem_zipIdx indexed)) made
  · rw [List.forall_mem_flatMap]
    intro service member
    obtain ⟨⟨origin, index⟩, indexed, rfl⟩ := List.mem_map.mp member
    exact Service.shown_ofDescriptor _ _ _
      (servicesShown origin (List.fst_mem_of_mem_zipIdx indexed))

end

end Schema

namespace Generation

/-- The texts of an input and an environment that messages may show as they are have no line break:
the names in the files, the plugin parameter, and the switches of the environment. -/
structure BareTextsOneLine (input : Text) (environment : Environment) : Prop where
  names : ∀ encoded, EncodedRequest.read input = .ok encoded →
    ∀ raw ∈ encoded.files, ∀ text ∈ raw.bareTexts, text.OneLine
  parameter : ∀ encoded, EncodedRequest.read input = .ok encoded → encoded.parameter.OneLine
  switches : ∀ value, environment.SetsSwitch value → value.OneLine

namespace BareTextsOneLine

variable {input : Text} {environment : Environment} (plain : BareTextsOneLine input environment)
  {request : Request} (read : Request.ofBytes input = .ok request)

include plain read

private theorem files : ∀ file ∈ request.files, ∀ text ∈ file.bareTexts, text.OneLine := by
  obtain ⟨encoded, isIn⟩ := Request.exists_isIn_of_ofBytes read
  rw [Request.ofBytes_of_isIn isIn, Request.ofEncoded_eq_ok] at read
  obtain ⟨each, -⟩ := Request.convertFiles_nil_eq_ok.mp read.1
  intro file member
  obtain ⟨raw, rawMember, converted⟩ := Result.exists_of_mem_forall₂ each member
  exact Schema.File.shown_ofDescriptor (plain.names encoded isIn.2 raw rawMember) converted

private theorem options : FailsOnly Fault.OneLine (request.options environment) := by
  obtain ⟨encoded, isIn⟩ := Request.exists_isIn_of_ofBytes read
  rw [Request.ofBytes_of_isIn isIn, Request.ofEncoded_eq_ok] at read
  have parameter : request.parameter.OneLine := read.2.2 ▸ plain.parameter encoded isIn.2
  rw [Request.options]
  split
  · rename_i fault refused
    have oneLine := Options.ofParameter_oneLine parameter plain.switches fault refused
    exact Result.failsOnly_error.mpr (oneLine.because (by decide))
  · exact Result.failsOnly_ok _

end BareTextsOneLine

private theorem runUnder_oneLine (schedule : Nat → List GroupStep) {input : Text}
    {environment : Environment} (plain : BareTextsOneLine input environment) :
    FailsOnly Fault.OneLine (runUnder schedule input environment).result := by
  rw [result_runUnder]
  refine .bind ?_ fun request read => .bind (plain.options read) fun options _ => .bind ?_
    fun workshop _ => ?_
  · exact (Request.ofBytes_fails plain.names).mono fun _ malformed => malformed.oneLine
  · exact (Workshop.ofFiles_fails request.files options).mono fun _ malformed => malformed.oneLine
  · obtain ⟨named, chosen⟩ := Request.files_of_ofBytes read
    refine (workshop.generate_fails (fun file member => named file (chosen member))
      (fun file member => plain.files read file (chosen member)) schedule).mono ?_
    exact fun _ untypable => untypable.oneLine

/-- The diagnostic of a failed run starts with the program and the kind of the failure and ends with
a line break. It is one line exactly if the message shows no text with a line break as it is. Such a
text can only come from the names in the request, from its parameter, or from a switch of the
environment. -/
theorem diagnostic_oneLine_iff (schedule : Nat → List GroupStep) (input : Text)
    (environment : Environment) {fault : Fault}
    (failed : (deliver schedule input environment).run.result = .error fault) :
    fault.kind.name ∈
        (["malformed request", "unresolved reference", "unsupported field kind"] : List Text) ∧
      ("protoc-gen-tsd: " ++ fault.kind.name ++ ": " : Text) <+: fault.diagnostic ∧
      fault.diagnostic.getLast? = some Text.newline ∧
      (fault.diagnostic.count Text.newline = 1 ↔ ∀ text ∈ fault.bareTexts, text.OneLine) ∧
      (BareTextsOneLine input environment → fault.diagnostic.count Text.newline = 1) := by
  rcases deliver_cases schedule input environment with
    ⟨response, -, run, -⟩ | ⟨other, run, delivered, -⟩
  · cases run.symm.trans failed
  · obtain rfl := Except.error.inj (delivered.symm.trans failed)
    have kind := (runUnder_fails schedule input environment other run).1
    refine ⟨name_mem_of_mem_runFaultKinds kind, ?_, ?_, other.count_newline_diagnostic, ?_⟩
    · exact (List.prefix_append _ other.message).trans (List.prefix_append _ [Text.newline])
    · exact List.getLast?_concat
    · intro plain
      have oneLine := runUnder_oneLine schedule plain other run
      exact other.count_newline_diagnostic.mpr (other.oneLine_message.mp oneLine)

/-- A request for a file with one message, which has a field of a type that is declared nowhere. -/
def strayFieldInput (message : Text) : Text :=
  Wire.writeBytes 1 "m.proto" ++ Wire.writeBytes 15 (Wire.writeBytes 1 "m.proto" ++
    Wire.writeBytes 4 (Wire.writeBytes 1 message ++
      Wire.writeBytes 2 (Wire.writeBytes 1 "f" ++ Wire.writeNumber 5 11 ++
        Wire.writeBytes 6 ".Gone")))

def strayFieldFault (message : Text) : Fault :=
  .within (.file "m.proto") (.within (.message message)
    (.within (.field "f") (.unresolved ".Gone" "m.proto")))

/-- With a name of one line, the diagnostic is one line. -/
theorem diagnostic_oneLine_iff_strayField :
    (deliver inOrder (strayFieldInput "M") fun _ => none).run.result =
        .error (strayFieldFault "M") ∧
      BareTextsOneLine (strayFieldInput "M") (fun _ => none) ∧
      (strayFieldFault "M").diagnostic.count Text.newline = 1 := by
  have failed : (deliver inOrder (strayFieldInput "M") fun _ => none).run.result =
      .error (strayFieldFault "M") := by decide +kernel
  have texts : (EncodedRequest.read (strayFieldInput "M")).map (fun encoded =>
      (encoded.files.flatMap Descriptor.File.bareTexts, encoded.parameter)) =
        .ok (["M", ".M", ".Gone"], []) := by decide +kernel
  have plain : BareTextsOneLine (strayFieldInput "M") fun _ => none := by
    refine ⟨fun encoded decoded => ?_, fun encoded decoded => ?_, ?_⟩
    · rw [decoded] at texts
      have names : encoded.files.flatMap Descriptor.File.bareTexts = ["M", ".M", ".Gone"] :=
        congrArg Prod.fst (Except.ok.inj texts)
      rw [← List.forall_mem_flatMap, names]
      decide
    · rw [decoded] at texts
      have parameter : encoded.parameter = [] := congrArg Prod.snd (Except.ok.inj texts)
      rw [parameter]
      exact Text.oneLine_nil
    · rintro value ⟨setting, -, set⟩
      cases set
  obtain ⟨-, -, -, -, oneLine⟩ := diagnostic_oneLine_iff inOrder _ _ failed
  exact ⟨failed, plain, oneLine plain⟩

/-- The diagnostic of a run can be two lines: the parameter is shown as it is, and so are names of
messages. -/
theorem diagnostic_twoLine :
    (∃ fault, (deliver inOrder [18, 3, 97, 10, 98] fun _ => none).run.result = .error fault ∧
      fault.diagnostic =
        "protoc-gen-tsd: malformed request: invalid plugin parameter: unknown flag: --a\nb\n" ∧
      fault.diagnostic.count Text.newline = 2) ∧
    (deliver inOrder (strayFieldInput "M\nN") fun _ => none).run.result =
        .error (strayFieldFault "M\nN") ∧
      (strayFieldFault "M\nN").diagnostic.count Text.newline = 2 := by
  refine ⟨⟨.malformedBy "invalid plugin parameter" (.unknownFlag "a\nb"), ?_, ?_, ?_⟩, ?_, ?_⟩
  all_goals decide +kernel

end Generation

end ProtoTypings
