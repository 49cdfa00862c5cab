import ProtoTypings.Proofs.Output
import ProtoTypings.Proofs.Retarget

set_option autoImplicit false
set_option relaxedAutoImplicit false

/-!
Locality of the output. What is generated for a file depends on the other files of the request only
through the symbols that they declare: neither their order nor further files nor the contents of
their declarations matter. The reason is that declarations see the symbols only through lookups of
the type names in their file; where they could be made, all these names were found.
-/

namespace ProtoTypings

namespace SymbolTable

def Extends (table table' : SymbolTable) : Prop :=
  ∀ name symbol, table.find? name = some symbol → table'.find? name = some symbol

private theorem extends_of_subset {table table' : SymbolTable} (distinct : table.Distinct)
    (distinct' : table'.Distinct) (subset : table.symbols ⊆ table'.symbols) :
    table.Extends table' := by
  intro name symbol found
  obtain ⟨member, named⟩ := (find?_eq_some_iff distinct).mp found
  exact (find?_eq_some_iff distinct').mpr ⟨subset member, named⟩

private theorem resolve_congr {table table' : SymbolTable}
    (style : table.importStyle = table'.importStyle)
    {name : Text} (same : table.find? name = table'.find? name) (source : Text) :
    table.resolve name source = table'.resolve name source := by
  rw [resolve, resolve, same, style]

private theorem alike_of_lookup {table table' : SymbolTable}
    (style : table.importStyle = table'.importStyle) {names : List Text}
    (lookup : ∀ name ∈ names, table.find? name = table'.find? name) (source : Text) :
    Alike id table table' source names := fun name member =>
  Result.agree_iff_eq.mpr (resolve_congr style (lookup name member) source)

end SymbolTable

private theorem FieldType.mapTarget_id : FieldType.mapTarget id = id := by
  have element (type : ElementType) : type.mapTarget id = type := by cases type <;> rfl
  funext type
  cases type <;> simp [FieldType.mapTarget, element]

namespace Declaration

section

variable {file : Schema.File} {table table' : SymbolTable}

theorem MessageFile.ofSchema_lookup (style : table.importStyle = table'.importStyle)
    (lookup : ∀ name ∈ file.typeNames, table.find? name = table'.find? name) (options : Options) :
    MessageFile.ofSchema file table options = MessageFile.ofSchema file table' options := by
  have alike := SymbolTable.alike_of_lookup style lookup file.path
  have agree := Context.outline_agree alike (fun _ => rfl) options
  have outlines : (Context.ofFile file table options).outline file =
      (Context.ofFile file table' options).outline file := by
    refine Result.agree_iff_eq.mp (agree.mono fun outline outline' _ same => ?_)
    rwa [FieldType.mapTarget_id, ← Outline.change_type, Outline.change_id] at same
  rw [MessageFile.ofSchema_eq_map, MessageFile.ofSchema_eq_map, outlines]

theorem ServiceFile.ofSchema_lookup (style : table.importStyle = table'.importStyle)
    (lookup : ∀ name ∈ file.typeNames, table.find? name = table'.find? name) (options : Options) :
    ServiceFile.ofSchema file table options = ServiceFile.ofSchema file table' options := by
  have alike := SymbolTable.alike_of_lookup style lookup file.path
  have agree := ServiceFile.signatures_agree alike (fun _ => rfl) options options id fun _ => rfl
  have signatures : file.services.mapM (Service.signatures table file.path options) =
      file.services.mapM (Service.signatures table' file.path options) := by
    refine Result.agree_iff_eq.mp (agree.mono fun services services' _ same => ?_)
    rwa [List.map_congr_left fun service _ => Service.change_id service, List.map_id'] at same
  rw [ServiceFile.ofSchema_eq_map, ServiceFile.ofSchema_eq_map, signatures]

end

end Declaration

section

variable {table : SymbolTable} {source : Text}

private theorem ElementType.found_of_ofField {owner : Text} {field : Schema.Field}
    {type : ElementType} (typed : ofField table source owner field = .ok type) {name : Text}
    (member : name ∈ field.ownTypeName) : ∃ symbol, table.find? name = some symbol := by
  rw [Schema.Field.ownTypeName] at member
  split at member
  · obtain rfl := List.mem_singleton.mp member
    rcases ofField_cases typed with ⟨scalar, scalarKind, -⟩ | ⟨kind, target, -, resolved, -, -⟩
    · rename_i refers
      simp [scalarKind, Schema.FieldKind.symbolKind?] at refers
    · exact ⟨target.toSymbol, (SymbolTable.resolve_eq_ok resolved).1⟩
  · cases member

private theorem FieldType.found_of_ofField {field : Schema.Field} {type : FieldType}
    (typed : ofField table source field = .ok type) {name : Text}
    (member : name ∈ field.typeNames) : ∃ symbol, table.find? name = some symbol := by
  rcases ofField_cases typed with ⟨notMap, element, elementTyped, -⟩ |
    ⟨isMap, key, value, keyType, valueType, entry, -, -, valueTyped, -⟩
  · rw [Schema.Field.typeNames, if_neg notMap] at member
    exact ElementType.found_of_ofField elementTyped member
  · rw [Schema.Field.typeNames, if_pos isMap, entry] at member
    exact ElementType.found_of_ofField valueTyped member

end

namespace Declaration

variable {file : Schema.File} {table : SymbolTable} {options : Options}

theorem MessageFile.found_of_ofSchema {messages : MessageFile}
    (made : MessageFile.ofSchema file table options = .ok messages) {field : Schema.Field}
    (member : field ∈ file.members) {name : Text} (named : name ∈ field.typeNames) :
    ∃ symbol, table.find? name = some symbol := by
  rw [MessageFile.ofSchema_eq_map] at made
  obtain ⟨outline, outlined, -⟩ := Result.map_eq_ok.mp made
  obtain ⟨type, -, typed⟩ := Result.mapM_ok_of_mem (Context.types_outline outlined) member
  exact FieldType.found_of_ofField typed named

theorem ServiceFile.found_of_ofSchema {services : Option ServiceFile}
    (made : ServiceFile.ofSchema file table options = .ok services) {service : Schema.Service}
    (member : service ∈ file.services) {method : Schema.Method}
    (methodMember : method ∈ service.methods) {name : Text} (named : name ∈ method.typeNames) :
    ∃ symbol, table.find? name = some symbol := by
  have declared : ¬file.services.isEmpty := by
    intro empty
    rw [List.isEmpty_iff.mp empty] at member
    cases member
  rw [ServiceFile.ofSchema_eq_map, if_neg declared] at made
  obtain ⟨signed, allSigned, -⟩ := Result.map_eq_ok.mp made
  obtain ⟨signatures, -, serviceSigned⟩ := Result.mapM_ok_of_mem allSigned member
  have methods := Result.mapM_eq_ok.mpr (Service.signatures_eq_ok serviceSigned)
  obtain ⟨signature, -, methodSigned⟩ := Result.mapM_ok_of_mem methods methodMember
  obtain ⟨-, request, response⟩ := Signature.ofSchema_eq_ok methodSigned
  rcases List.mem_pair.mp named with rfl | rfl
  · exact ⟨_, (SymbolTable.resolve_eq_ok (SymbolTable.resolveMessage_eq_ok request).1).1⟩
  · exact ⟨_, (SymbolTable.resolve_eq_ok (SymbolTable.resolveMessage_eq_ok response).1).1⟩

end Declaration

namespace Generation.Workshop

open Declaration (MessageFile ServiceFile)

variable {workshop workshop' : Workshop} {file : Schema.File}

private theorem made_of_output {outputs : List OutputFile}
    (worked : (workshop.output file).result = .ok outputs) :
    (∃ messages, MessageFile.ofSchema file workshop.table workshop.options = .ok messages) ∧
      ∃ services, ServiceFile.ofSchema file workshop.table workshop.options = .ok services := by
  simp only [output, Traced.result_bind, Traced.result_emit, Traced.result_ofResult,
    Traced.result_pure, pure_bind, Result.bind_eq_ok, Result.located_eq_ok] at worked
  obtain ⟨messages, messagesMade, -, -, services, servicesMade, -⟩ := worked
  exact ⟨⟨messages, messagesMade⟩, services, servicesMade⟩

private theorem output_extends (options : workshop.options = workshop'.options)
    (style : workshop.table.importStyle = workshop'.table.importStyle)
    (extended : workshop.table.Extends workshop'.table) {outputs : List OutputFile}
    (worked : (workshop.output file).result = .ok outputs) :
    workshop.output file = workshop'.output file := by
  obtain ⟨⟨messages, messagesMade⟩, services, servicesMade⟩ := made_of_output worked
  have found (name : Text) (member : name ∈ file.typeNames) :
      ∃ symbol, workshop.table.find? name = some symbol := by
    rcases List.mem_append.mp member with inField | inMethod
    · obtain ⟨field, fieldMember, named⟩ := List.mem_flatMap.mp inField
      exact MessageFile.found_of_ofSchema messagesMade fieldMember named
    · obtain ⟨service, serviceMember, inService⟩ := List.mem_flatMap.mp inMethod
      obtain ⟨method, methodMember, named⟩ := List.mem_flatMap.mp inService
      exact ServiceFile.found_of_ofSchema servicesMade serviceMember methodMember named
  have lookup (name : Text) (member : name ∈ file.typeNames) :
      workshop.table.find? name = workshop'.table.find? name := by
    obtain ⟨symbol, foundSymbol⟩ := found name member
    rw [foundSymbol, extended name symbol foundSymbol]
  refine output_congr ?_ ?_
  · rw [← options]
    exact MessageFile.ofSchema_lookup style lookup _
  · rw [← options]
    exact ServiceFile.ofSchema_lookup style lookup _

end Generation.Workshop

namespace SymbolTable

private theorem ofFiles_of_nodup (importStyle : ImportStyle) {files : List Schema.File}
    (distinct : ((Symbol.ofFiles files).map Symbol.qualifiedName).Nodup) :
    ofFiles importStyle files = .ok { symbols := Symbol.ofFiles files, importStyle } := by
  rcases insertAll_cases { importStyle } List.nodup_nil (Symbol.ofFiles files) with
    ⟨-, run⟩ | ⟨before, symbol, after, earlier, split, -, member, same, -⟩
  · exact run
  · rw [split, List.map_append, List.map_cons] at distinct
    have apart := (List.nodup_append.mp distinct).2.2
    have inBefore : earlier.qualifiedName ∈ before.map Symbol.qualifiedName :=
      List.mem_map_of_mem (by simpa using member)
    exact absurd same (apart _ inBefore _ List.mem_cons_self)

end SymbolTable

namespace EncodedRequest

/-- The edits of a request that spare the files that declarations are wanted for: the schema files
change places, one more joins whose path and full names are new, or an unwanted one is replaced
by one that declares the same names. -/
inductive Edit (encoded : EncodedRequest) : EncodedRequest → Prop
  | permute {files : List Descriptor.File} (order : encoded.files.Perm files) :
      Edit encoded { encoded with files }
  | add {before after : List Descriptor.File} {raw : Descriptor.File} {file : Schema.File}
      (place : encoded.files = before ++ after)
      (converts : Schema.File.ofDescriptor raw = .ok file)
      (newPath : raw.name ∉ encoded.files.map (·.name))
      (distinct : raw.qualifiedNames.Nodup)
      (apart : ∀ other ∈ encoded.files, raw.qualifiedNames.Disjoint other.qualifiedNames) :
      Edit encoded { encoded with files := before ++ raw :: after }
  | replace {before after : List Descriptor.File} {raw raw' : Descriptor.File}
      {file : Schema.File} (place : encoded.files = before ++ raw :: after)
      (unwanted : raw.name ∉ encoded.toGenerate)
      (converts : Schema.File.ofDescriptor raw' = .ok file) (names : raw'.names = raw.names) :
      Edit encoded { encoded with files := before ++ raw' :: after }

private theorem Edit.toGenerate {encoded encoded' : EncodedRequest} (edit : encoded.Edit encoded') :
    encoded'.toGenerate = encoded.toGenerate := by
  cases edit <;> rfl

private theorem Edit.parameter {encoded encoded' : EncodedRequest} (edit : encoded.Edit encoded') :
    encoded'.parameter = encoded.parameter := by
  cases edit <;> rfl

end EncodedRequest

namespace Request

open Schema (File)

/-- Two collections of schema files that are the same to the files with the given paths: these are
in both, and what is declared in the first is declared in the second. -/
structure Keeps (paths : List Text) (files files' : List File) : Prop where
  kept : ∀ file ∈ files, file.path ∈ paths → file ∈ files'
  symbols : Symbol.ofFiles files ⊆ Symbol.ofFiles files'
  distinct : ((Symbol.ofFiles files).map Symbol.qualifiedName).Nodup →
    ((Symbol.ofFiles files').map Symbol.qualifiedName).Nodup

variable {paths : List Text} {files files' chosen : List File}

private theorem Keeps.of_perm (order : files.Perm files') : Keeps paths files files' := by
  have symbols : (Symbol.ofFiles files).Perm (Symbol.ofFiles files') := order.flatMap_right _
  exact ⟨fun file member _ => order.subset member, symbols.subset,
    ((symbols.map Symbol.qualifiedName).nodup_iff).mp⟩

private theorem Keeps.trans {more : List File} (first : Keeps paths files files')
    (second : Keeps paths files' more) : Keeps paths files more :=
  ⟨fun file member isWanted => second.kept file (first.kept file member isWanted) isWanted,
    fun _ member => second.symbols (first.symbols member), second.distinct ∘ first.distinct⟩

private theorem Keeps.wanted (keeps : Keeps paths files files')
    (distinct : (files.map File.path).Nodup)
    (distinct' : (files'.map File.path).Nodup) (found : wanted files paths = .ok chosen) :
    wanted files' paths = .ok chosen := by
  rw [wanted_eq_ok] at found ⊢
  refine Result.forall₂_imp_of_mem (fun path pathMember file _ foundFile => ?_) found
  obtain ⟨member, rfl⟩ := (findFile_eq_ok distinct).mp foundFile
  exact (findFile_eq_ok distinct').mpr ⟨keeps.kept file member pathMember, rfl⟩

private theorem Keeps.cons {file : File}
    (own : ((Symbol.ofFile file).map Symbol.qualifiedName).Nodup)
    (apart : ((Symbol.ofFile file).map Symbol.qualifiedName).Disjoint
      ((Symbol.ofFiles files).map Symbol.qualifiedName)) :
    Keeps paths files (file :: files) := by
  refine ⟨fun _ member _ => List.mem_cons_of_mem file member, ?_, fun distinct => ?_⟩
  · exact List.subset_append_right (Symbol.ofFile file) (Symbol.ofFiles files)
  · rw [Symbol.ofFiles, List.flatMap_cons, List.map_append]
    exact own.append distinct apart

private theorem Keeps.head {file file' : File} (unwanted : file.path ∉ paths)
    (symbols : Symbol.ofFile file' = Symbol.ofFile file) :
    Keeps paths (file :: files) (file' :: files) := by
  have same : Symbol.ofFiles (file' :: files) = Symbol.ofFiles (file :: files) := by
    rw [Symbol.ofFiles, Symbol.ofFiles, List.flatMap_cons, List.flatMap_cons, symbols]
  refine ⟨fun other member isWanted => ?_, same ▸ List.Subset.refl _,
    fun distinct => same ▸ distinct⟩
  rcases List.mem_cons.mp member with rfl | later
  · exact absurd isWanted unwanted
  · exact List.mem_cons_of_mem file' later

open EncodedRequest (Edit)

/-- Every edit of a request whose descriptors can be converted leaves them so, and keeps what the
wanted files see. -/
private theorem Keeps.of_edit {encoded encoded' : EncodedRequest} (edit : encoded.Edit encoded')
    (converted : convertFiles [] encoded.files = .ok files) :
    ∃ files', convertFiles [] encoded'.files = .ok files' ∧
      Keeps encoded.toGenerate files files' := by
  cases edit with
  | permute order =>
    obtain ⟨files', converted', order'⟩ := convertFiles_perm order converted
    exact ⟨files', converted', .of_perm order'⟩
  | @add before after raw file place converts newPath distinct apart =>
    have own : (Symbol.ofFile file).map Symbol.qualifiedName = raw.qualifiedNames :=
      congrArg _ (Symbol.ofFile_eq_symbols converts)
    have keeps : Keeps encoded.toGenerate files (file :: files) := by
      refine .cons (own ▸ distinct) ?_
      rw [own, symbols_convertFiles converted, List.map_flatMap]
      intro name isNew old
      obtain ⟨other, member, inOther⟩ := List.mem_flatMap.mp old
      exact apart other member isNew inOther
    have first : convertFiles [] (raw :: encoded.files) = .ok (file :: files) := by
      rw [convertFiles_cons converts, paths_convertFiles converted,
        (Schema.File.ofDescriptor_eq_ok converts).path]
      exact ⟨converted, newPath⟩
    -- the new file stands before the others, and from there goes to its place
    have toPlace : (raw :: encoded.files).Perm (before ++ raw :: after) :=
      place ▸ List.perm_middle.symm
    obtain ⟨files', converted', order⟩ := convertFiles_perm toPlace first
    exact ⟨files', converted', keeps.trans (.of_perm order)⟩
  | @replace before after raw raw' file place unwanted converts names =>
    -- the file is moved to the front, replaced there, and its successor moved back
    rw [place] at converted
    obtain ⟨moved, movedConverted, order⟩ := convertFiles_perm List.perm_middle converted
    obtain ⟨old, rest, oldConverts, -, rfl⟩ :=
      List.forall₂_cons_left_iff.mp (convertFiles_nil_eq_ok.mp movedConverted).1
    obtain ⟨restConverted, oldPath⟩ := (convertFiles_cons oldConverts).mp movedConverted
    have path : old.path = raw.name := (Schema.File.ofDescriptor_eq_ok oldConverts).path
    have path' : file.path = raw'.name := (Schema.File.ofDescriptor_eq_ok converts).path
    have samePath : raw'.name = raw.name := congrArg FileNames.path names
    have first : convertFiles [] (raw' :: (before ++ after)) = .ok (file :: rest) := by
      rw [convertFiles_cons converts, path', samePath, ← path]
      exact ⟨restConverted, oldPath⟩
    have symbols : Symbol.ofFile file = Symbol.ofFile old := by
      rw [Symbol.ofFile_eq_symbols converts, Symbol.ofFile_eq_symbols oldConverts, names]
    obtain ⟨files', converted', order'⟩ := convertFiles_perm List.perm_middle.symm first
    exact ⟨files', converted', (Keeps.of_perm order).trans
      ((Keeps.head (path ▸ unwanted) symbols).trans (.of_perm order'))⟩

private theorem ofEncoded_edit {encoded encoded' : EncodedRequest} (edit : encoded.Edit encoded')
    {request : Request} (read : ofEncoded encoded = .ok request) :
    ∃ request', ofEncoded encoded' = .ok request' ∧ request'.parameter = request.parameter ∧
      request'.toGenerate = request.toGenerate ∧
      Keeps encoded.toGenerate request.files request'.files := by
  obtain ⟨converted, found, parameter⟩ := ofEncoded_eq_ok.mp read
  obtain ⟨files', converted', keeps⟩ := Keeps.of_edit edit converted
  have found' : wanted files' encoded'.toGenerate = .ok request.toGenerate := by
    rw [edit.toGenerate]
    exact keeps.wanted (convertFiles_nil_eq_ok.mp converted).2
      (convertFiles_nil_eq_ok.mp converted').2 found
  exact ⟨⟨files', request.toGenerate, encoded'.parameter⟩,
    ofEncoded_eq_ok.mpr ⟨converted', found', rfl⟩, edit.parameter.trans parameter.symm, rfl, keeps⟩

end Request

namespace Generation

private theorem Workshop.inTurn_extends {options : Options} {table table' : SymbolTable}
    (extended : table.Extends table') (style : table.importStyle = table'.importStyle)
    {files : List Schema.File} {outputs : List OutputFile}
    (worked : Group.inTurn (files.map (output ⟨table, options⟩)) = .ok outputs) :
    Group.inTurn (files.map (output ⟨table', options⟩)) = .ok outputs := by
  have each (file : Schema.File) (member : file ∈ files) :
      output ⟨table, options⟩ file = output ⟨table', options⟩ file := by
    cases single : (output ⟨table, options⟩ file).result with
    | ok own => exact output_extends rfl style extended single
    | error fault =>
      exact absurd worked (Group.inTurn_ne_ok (List.mem_map_of_mem member) single outputs)
  rwa [← List.map_congr_left each]

private theorem runUnder_edit {schedule schedule' : Nat → List GroupStep}
    {environment : Environment}
    {input input' : Text} {encoded encoded' : EncodedRequest} (decoded : encoded.IsIn input)
    (decoded' : encoded'.IsIn input') (edit : encoded.Edit encoded')
    (finishes : RunFinishes schedule input environment)
    (finishes' : RunFinishes schedule' input' environment) {response : Response}
    (succeeded : (runUnder schedule input environment).result = .ok response) :
    (runUnder schedule' input' environment).result = .ok response := by
  obtain ⟨request, options, table, outputs, read, accepted, built, worked, handedOver⟩ :=
    (result_runUnder_eq_ok finishes).mp succeeded
  rw [Request.ofBytes_of_isIn decoded] at read
  obtain ⟨request', read', parameter, toGenerate, keeps⟩ := Request.ofEncoded_edit edit read
  obtain ⟨rfl, distinct⟩ := SymbolTable.ofFiles_eq_ok built
  have distinct' := keeps.distinct distinct
  have accepted' : request'.options environment = .ok options := by
    rw [Request.options, parameter]
    exact accepted
  have extended : SymbolTable.Extends ⟨Symbol.ofFiles request.files, options.importStyle⟩
      ⟨Symbol.ofFiles request'.files, options.importStyle⟩ :=
    SymbolTable.extends_of_subset distinct distinct' keeps.symbols
  refine (result_runUnder_eq_ok finishes').mpr ⟨request', options, _, outputs, ?_, accepted',
    SymbolTable.ofFiles_of_nodup _ distinct', ?_, handedOver⟩
  · rw [Request.ofBytes_of_isIn decoded', read']
  · rw [toGenerate]
    exact Workshop.inTurn_extends extended rfl worked

private theorem written_deliver {schedule : Nat → List GroupStep} {input : Text}
    {environment : Environment} {response : Response}
    (succeeded : (runUnder schedule input environment).result = .ok response) :
    (deliver schedule input environment).written = response.write := by
  rw [deliver, succeeded]

private theorem Workshop.generate_append {workshop : Workshop}
    {whole front back : Nat → List GroupStep}
    {xs ys : List Schema.File} (finishes : workshop.Finishes whole (xs ++ ys))
    (finishesFront : workshop.Finishes front xs) (finishesBack : workshop.Finishes back ys)
    (response : Response) :
    (workshop.generate whole (xs ++ ys)).result = .ok response ↔ ∃ first second,
      (workshop.generate front xs).result = .ok first ∧
      (workshop.generate back ys).result = .ok second ∧
      response = { first with files := first.files ++ second.files } := by
  simp only [result_generate_eq_ok finishes, result_generate_eq_ok finishesFront,
    result_generate_eq_ok finishesBack, List.map_append, Group.inTurn_append_eq_ok]
  constructor
  · rintro ⟨_, ⟨first, second, workedFirst, workedSecond, rfl⟩, rfl⟩
    refine ⟨_, _, ⟨first, workedFirst, rfl⟩, ⟨second, workedSecond, rfl⟩, ?_⟩
    simp [Response.ofFiles]
  · rintro ⟨_, _, ⟨first, workedFirst, rfl⟩, ⟨second, workedSecond, rfl⟩, rfl⟩
    refine ⟨_, ⟨first, second, workedFirst, workedSecond, rfl⟩, ?_⟩
    simp [Response.ofFiles]

open Declaration (MessageFile ServiceFile)

/-- Three sides of locality. Whatever is edited in a request beside the wanted files, the response
stays. Declarations are the same with every two tables that agree on the type names in the file. And
the files of a response are those of its parts, one after the other. -/
theorem output_local :
    (∀ (schedule schedule' : Nat → List GroupStep) (environment : Environment)
        (input input' : Text) (encoded encoded' : EncodedRequest),
      encoded.IsIn input → encoded'.IsIn input' → encoded.Edit encoded' →
      RunFinishes schedule input environment → RunFinishes schedule' input' environment →
      ∀ response, (runUnder schedule input environment).result = .ok response →
        (runUnder schedule' input' environment).result = .ok response ∧
        (deliver schedule' input' environment).written =
          (deliver schedule input environment).written) ∧
    (∀ (file : Schema.File) (table table' : SymbolTable) (options : Options),
      table.importStyle = table'.importStyle →
      (∀ name ∈ file.typeNames, table.find? name = table'.find? name) →
      MessageFile.ofSchema file table options = MessageFile.ofSchema file table' options ∧
        ServiceFile.ofSchema file table options = ServiceFile.ofSchema file table' options) ∧
    ∀ (workshop : Workshop) (whole front back : Nat → List GroupStep) (xs ys : List Schema.File),
      workshop.Finishes whole (xs ++ ys) → workshop.Finishes front xs →
      workshop.Finishes back ys →
      ∀ response, (workshop.generate whole (xs ++ ys)).result = .ok response ↔ ∃ first second,
        (workshop.generate front xs).result = .ok first ∧
        (workshop.generate back ys).result = .ok second ∧
        response = { first with files := first.files ++ second.files } := by
  refine ⟨?_, ?_, ?_⟩
  · intro schedule schedule' environment input input' encoded encoded' decoded decoded' edit
      finishes finishes' response succeeded
    have same := runUnder_edit decoded decoded' edit finishes finishes' succeeded
    exact ⟨same, by rw [written_deliver same, written_deliver succeeded]⟩
  · intro file table table' options style lookup
    exact ⟨MessageFile.ofSchema_lookup style lookup options,
      ServiceFile.ofSchema_lookup style lookup options⟩
  · intro workshop whole front back xs ys finishes finishesFront finishesBack
    exact Workshop.generate_append finishes finishesFront finishesBack

/-- The encoding of a file `a` whose message `A` has a field of type `.B`. -/
def referringBytes : Text :=
  [10, 1, 97, 34, 16, 10, 1, 65, 18, 11, 10, 1, 98, 24, 1, 40, 11, 50, 2, 46, 66]

def referredBytes : Text := [10, 1, 98, 34, 3, 10, 1, 66]

/-- The fields of a request for the file `a`. -/
def recordWith (files : List Text) : List Wire.Field :=
  ⟨1, .bytes "a"⟩ :: files.map fun file => ⟨15, .bytes file⟩

def inputWith (files : List Text) : Text :=
  Wire.writeBytes 1 "a" ++ files.flatMap (Wire.writeBytes 15)

def referringFile : Schema.File where
  path := "a"
  messages := [{ name := "A", fields := [{ name := "b", kind := .message, typeName := ".B" }] }]

def referredTable : SymbolTable where
  symbols := [⟨".B", "b", "B", .message⟩]

/-- The response for `a` is the same if `b` comes first, its declarations are the same if there is
another symbol, and twice the file makes twice the output. -/
theorem output_local_referring :
    let environment : Environment := fun _ => none
    let bigger : SymbolTable := { symbols := ⟨".C", "c", "C", .enum⟩ :: referredTable.symbols }
    let workshop : Workshop := ⟨referredTable, {}⟩
    (∃ response,
      (run (inputWith [referringBytes, referredBytes]) environment).result = .ok response ∧
      (run (inputWith [referredBytes, referringBytes]) environment).result = .ok response) ∧
    MessageFile.ofSchema referringFile referredTable {} =
      MessageFile.ofSchema referringFile bigger {} ∧
    ∀ response, (workshop.generate inOrder ([referringFile] ++ [referringFile])).result =
        .ok response ↔
      ∃ first second, (workshop.generate inOrder [referringFile]).result = .ok first ∧
        (workshop.generate inOrder [referringFile]).result = .ok second ∧
        response = { first with files := first.files ++ second.files } := by
  intro environment bigger workshop
  obtain ⟨edited, lookedUp, appended⟩ := output_local
  refine ⟨?_, ?_, ?_⟩
  · have nonempty (files : List Text) : inputWith files ≠ [] :=
      List.append_ne_nil_of_left_ne_nil (by decide +kernel) _
    have read : Wire.readRecord .request (inputWith [referringBytes, referredBytes]) =
        .ok (recordWith [referringBytes, referredBytes]) := by decide +kernel
    have read' : Wire.readRecord .request (inputWith [referredBytes, referringBytes]) =
        .ok (recordWith [referredBytes, referringBytes]) := by decide +kernel
    have decoded : (EncodedRequest.ofRecord (recordWith [referringBytes, referredBytes])).IsIn
        (inputWith [referringBytes, referredBytes]) :=
      ⟨nonempty _, by rw [EncodedRequest.read, read]⟩
    have decoded' : (EncodedRequest.ofRecord (recordWith [referredBytes, referringBytes])).IsIn
        (inputWith [referredBytes, referringBytes]) :=
      ⟨nonempty _, by rw [EncodedRequest.read, read']⟩
    have order : (Wire.recordsOf 15 (recordWith [referringBytes, referredBytes])).Perm
        (Wire.recordsOf 15 (recordWith [referredBytes, referringBytes])) := by decide +kernel
    have finishes : RunFinishes inOrder (inputWith [referringBytes, referredBytes]) environment :=
      (sequential_of_parallel_eq (by decide +kernel)).runFinishes inOrder
    have finishes' : RunFinishes inOrder (inputWith [referredBytes, referringBytes]) environment :=
      (sequential_of_parallel_eq (by decide +kernel)).runFinishes inOrder
    have succeeds :
        (run (inputWith [referringBytes, referredBytes]) environment).result.isOk = true := by
      decide +kernel
    cases ended : (run (inputWith [referringBytes, referredBytes]) environment).result with
    | error fault => simp [ended, Except.isOk, Except.toBool] at succeeds
    | ok response =>
      have same := edited inOrder inOrder environment _ _ _ _ decoded decoded'
        (.permute (order.map Descriptor.File.ofRecord)) finishes finishes' response ended
      exact ⟨response, rfl, same.1⟩
  · exact (lookedUp referringFile referredTable bigger {} rfl (by decide +kernel)).1
  · have finishes (files : List Schema.File) : workshop.Finishes inOrder files :=
      fun parallel => nomatch parallel
    exact appended workshop inOrder inOrder inOrder _ _ (finishes _) (finishes _) (finishes _)

end Generation

end ProtoTypings
