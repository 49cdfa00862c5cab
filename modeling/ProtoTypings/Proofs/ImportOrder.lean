import ProtoTypings.Proofs.ServiceAlias

set_option autoImplicit false
set_option relaxedAutoImplicit false

/-!
Which modules a file of declarations imports, and in which order. The collector of imports keeps of
all references to modules the first ones, and the references come in the order of a walk over the
schema file, so the paths of the imports can be read off the schema.
-/

namespace ProtoTypings

namespace Keyed

private theorem eraseDups_append_cons_of_mem {paths : List Text} {path : Text}
    (known : path ∈ paths)
    (rest : List Text) : (paths ++ path :: rest).eraseDups = (paths ++ rest).eraseDups := by
  have contained : paths.contains path = true := by simpa using known
  rw [List.eraseDups_append, List.eraseDups_append, List.cons_removeAll, contained]
  rfl

private theorem eraseDups_of_nodup {paths : List Text} (distinct : paths.Nodup) :
    paths.eraseDups = paths := by
  induction paths with
  | nil => rfl
  | cons path rest ih =>
    obtain ⟨fresh, distinctRest⟩ := List.nodup_cons.mp distinct
    have kept : rest.filter (fun other => !other == path) = rest := by
      apply List.filter_eq_self.mpr
      intro other member
      have differs : other ≠ path := fun same => fresh (same ▸ member)
      simpa using differs
    rw [List.eraseDups_cons, kept, ih distinctRest]

end Keyed

namespace Imports

private theorem paths_addAll {imports : Imports} (wellFormed : imports.WellFormed)
    (targets : List Resolution) :
    (imports.addAll targets).entries.map Import.path =
      (imports.entries.map Import.path ++
        (targets.filter fun target => !imports.inScope target).map (·.importPath)).eraseDups := by
  induction targets generalizing imports with
  | nil =>
    rw [List.filter_nil, List.map_nil, List.append_nil, Keyed.eraseDups_of_nodup wellFormed.paths]
    rfl
  | cons target rest ih =>
    have later := ih (wellFormed.add target)
    simp only [inScope_add] at later
    change ((imports.add target).addAll rest).entries.map Import.path = _
    rw [later]
    by_cases inside : imports.inScope target = true
    · have same : imports.add target = imports := by rw [add, if_pos inside]
      rw [same, List.filter_cons_of_neg (by simp [inside])]
    · rw [List.filter_cons_of_pos (by simpa using inside), List.map_cons]
      rcases add_cases imports target with ⟨same, known⟩ | ⟨-, pushed⟩
      · obtain ⟨entry, found⟩ := known.resolve_left inside
        obtain ⟨member, path⟩ := (Keyed.find?_eq_some_iff wellFormed.paths).mp found
        have listed : target.importPath ∈ imports.entries.map Import.path :=
          List.mem_map.mpr ⟨entry, member, path⟩
        rw [same, Keyed.eraseDups_append_cons_of_mem listed]
      · rw [pushed, push, List.map_append, List.append_assoc]
        rfl

end Imports

private theorem ElementType.forall₂_ofField {table : SymbolTable} {source owner : Text}
    {field : Schema.Field} {type : ElementType}
    (typed : ofField table source owner field = .ok type) :
    List.Forall₂ (fun name target => table.resolve name source = .ok target)
      field.ownTypeName type.reference?.toList := by
  rcases ofField_cases typed with ⟨scalar, kind, rfl⟩ | ⟨kind, target, fieldKind, resolved, -, rfl⟩
  · rw [Schema.Field.ownTypeName, kind, reference?_ofScalar]
    exact .nil
  · rw [Schema.Field.ownTypeName, fieldKind, SymbolKind.reference?_elementType]
    exact .cons resolved .nil

theorem FieldType.forall₂_ofField {table : SymbolTable} {source : Text} {field : Schema.Field}
    {type : FieldType} (typed : ofField table source field = .ok type) :
    List.Forall₂ (fun name target => table.resolve name source = .ok target)
      field.typeNames type.reference?.toList := by
  rcases ofField_cases typed with ⟨notMap, element, elementTyped, rfl⟩ |
    ⟨isMap, key, value, keyType, valueType, entry, -, -, valueTyped, rfl⟩
  · rw [Schema.Field.typeNames, if_neg notMap]
    have own := ElementType.forall₂_ofField elementTyped
    split <;> exact own
  · rw [Schema.Field.typeNames, if_pos isMap, entry]
    exact ElementType.forall₂_ofField valueTyped

namespace Schema

/-- The symbols that the fields and extensions of a file refer to, in the order of the walk. -/
def File.memberSymbols (file : File) (table : SymbolTable) : List Symbol :=
  (file.members.flatMap Field.typeNames).filterMap table.find?

/-- The symbols that the methods of a file refer to, the request of a method before its response. -/
def File.methodSymbols (file : File) (table : SymbolTable) : List Symbol :=
  file.methodTypeNames.filterMap table.find?

end Schema

namespace Declaration

/-- The imports of a file of declarations: a runtime, then the modules of certain symbols in order
of first occurrence. None is repeated, and none but the runtime is without a symbol. -/
structure ImportsOf (runtime source : Text) (table : SymbolTable) (symbols : List Symbol)
    (imports : List Import) : Prop where
  order : imports.map Import.path = runtime :: (symbols.map fun symbol =>
    Path.importPath source symbol.file table.importStyle).eraseDups
  once : (imports.map Import.path).Nodup
  mem_iff : ∀ path, path ∈ imports.map Import.path ↔ path = runtime ∨
    ∃ symbol ∈ symbols, Path.importPath source symbol.file table.importStyle = path

section

variable {table : SymbolTable} {source : Text} {names : List Text} {targets : List Resolution}

private theorem paths_of_references (ownInScope : Bool)
    (resolved : List.Forall₂ (fun name target => table.resolve name source = .ok target)
      names targets) :
    (targets.filter fun target => !(target.isLocal && ownInScope)).map (·.importPath) =
      ((names.filterMap table.find?).filter fun symbol =>
        !(decide (symbol.file = source) && ownInScope)).map fun symbol =>
          Path.importPath source symbol.file table.importStyle := by
  induction resolved with
  | nil => rfl
  | cons first _ ih =>
    obtain ⟨found, isLocal, path⟩ := SymbolTable.resolve_eq_ok first
    rw [List.filterMap_cons, found, List.filter_cons, List.filter_cons, isLocal]
    split
    · rw [List.map_cons, List.map_cons, path, ih]
    · exact ih

private theorem importsOf_addAll (ownInScope : Bool) (taken : List Text) (name : Text)
    {runtime : Text} (runtimeApart : ¬Text.ofString "_pb" <:+ runtime)
    (resolved : List.Forall₂ (fun name target => table.resolve name source = .ok target)
      names targets) :
    ImportsOf runtime source table
      ((names.filterMap table.find?).filter fun symbol =>
        !(decide (symbol.file = source) && ownInScope))
      ((Imports.fixed ⟨ownInScope, taken, []⟩ name runtime).addAll targets).entries := by
  have wellFormed := Imports.wellFormed_fixed ownInScope taken name runtime
  have paths := Imports.paths_addAll wellFormed targets
  have walk := paths_of_references ownInScope resolved
  generalize (names.filterMap table.find?).filter _ = symbols at walk ⊢
  let walked := symbols.map fun symbol => Path.importPath source symbol.file table.importStyle
  replace paths : ((Imports.fixed ⟨ownInScope, taken, []⟩ name runtime).addAll
      targets).entries.map Import.path = (runtime :: walked).eraseDups :=
    paths.trans (congrArg (fun others => (runtime :: others).eraseDups) walk)
  refine ⟨?_, (wellFormed.addAll targets).paths, ?_⟩
  · have others : walked.filter (fun path => !path == runtime) = walked := by
      apply List.filter_eq_self.mpr
      intro path member
      obtain ⟨symbol, -, rfl⟩ := List.mem_map.mp member
      have differs : Path.importPath source symbol.file table.importStyle ≠ runtime := fun same =>
        runtimeApart (same ▸ Path.suffix_importPath source symbol.file table.importStyle)
      simpa using differs
    rw [paths, List.eraseDups_cons, others]
  · intro path
    rw [paths, List.mem_eraseDups, List.mem_cons, List.mem_map]

end

/-- The imports of a file's declarations. Those of messages import the runtime library and the
modules of the symbols in other files that the members refer to; those of services import the gRPC
runtime and the modules of all symbols that the methods refer to. -/
theorem imports_exact (file : Schema.File) (table : SymbolTable) (options : Options) :
    (∀ emitted, MessageFile.ofSchema file table options = .ok emitted →
      ImportsOf runtimeModule file.path table
        ((file.memberSymbols table).filter fun symbol => symbol.file ≠ file.path)
        emitted.imports) ∧
    (∀ emitted, ServiceFile.ofSchema file table options = .ok (some emitted) →
      emitted.grpcModule = grpcRuntime options.grpcJs ∧
      ImportsOf emitted.grpcModule file.path table (file.methodSymbols table) emitted.imports) := by
  constructor
  · intro emitted made
    rw [MessageFile.ofSchema_eq_map] at made
    obtain ⟨outline, outlined, rfl⟩ := Result.map_eq_ok.mp made
    have typed := Result.mapM_eq_ok.mp (Context.types_outline outlined)
    have resolved : List.Forall₂ (fun name target => table.resolve name file.path = .ok target)
        (file.members.flatMap Schema.Field.typeNames)
        (outline.types.filterMap FieldType.reference?) := by
      rw [List.filterMap_eq_flatMap_toList]
      exact List.rel_flatMap typed fun field type => FieldType.forall₂_ofField
    have collected := importsOf_addAll true (topLevelNames file) runtimeName
      runtimeModule_not_suffix resolved
    simp only [Bool.and_true, ← decide_not] at collected
    exact collected
  · intro emitted made
    obtain ⟨services, signed, rfl⟩ := ServiceFile.ofSchema_eq_ofSigned made
    refine ⟨rfl, ?_⟩
    have collected := importsOf_addAll false
      (file.services.flatMap (fun service => serviceNames service.name) ++ [grpcName]) grpcName
      (grpcRuntime_not_suffix options.grpcJs) (references_of_signatures signed)
    rw [List.filter_eq_self.mpr (by simp)] at collected
    exact collected

/-- A file whose references go to other files and back: from a field, from a map in a nested message,
from an extension in the message, and from one in the file. -/
def stationFile : Schema.File where
  path := "m.proto"
  messages := [{
    name := "M"
    fullName := ".M"
    fields := [
      { name := "b", kind := .message, typeName := ".B" },
      { name := "self", kind := .message, typeName := ".M" }]
    messages := [{
      name := "N"
      fullName := ".M.N"
      fields := [
        { name := "c", kind := .map, cardinality := .repeated,
          map := some ⟨some { kind := .scalar .string },
            some { kind := .enum, typeName := ".C" }⟩ }] }]
    extensions := [{ name := "a", kind := .message, typeName := ".A" }] }]
  extensions := [{ name := "again", kind := .message, typeName := ".B" }]
  services := [{
    name := "S"
    fullName := ".S"
    methods := [{ name := "Go", inputType := ".M", outputType := ".B" }] }]

def stationTable : SymbolTable where
  symbols := [⟨".A", "a.proto", "A", .message⟩, ⟨".B", "b.proto", "B", .message⟩,
    ⟨".C", "c.proto", "C", .enum⟩, ⟨".M", "m.proto", "M", .message⟩]

theorem imports_exact_station :
    (∃ emitted, MessageFile.ofSchema stationFile stationTable {} = .ok emitted ∧
      emitted.imports.map Import.path = ["google-protobuf", "./b_pb", "./c_pb", "./a_pb"]) ∧
    ∃ emitted, ServiceFile.ofSchema stationFile stationTable {} = .ok (some emitted) ∧
      emitted.imports.map Import.path = ["grpc", "./m_pb", "./b_pb"] := by
  obtain ⟨messages, messagesMade⟩ :
      ∃ emitted, MessageFile.ofSchema stationFile stationTable {} = .ok emitted := ⟨_, rfl⟩
  obtain ⟨services, servicesMade⟩ :
      ∃ emitted, ServiceFile.ofSchema stationFile stationTable {} = .ok (some emitted) := ⟨_, rfl⟩
  obtain ⟨ofMessages, ofServices⟩ := imports_exact stationFile stationTable {}
  refine ⟨⟨messages, messagesMade, ?_⟩, services, servicesMade, ?_⟩
  · rw [(ofMessages messages messagesMade).order]
    decide +kernel
  · obtain ⟨runtime, collected⟩ := ofServices services servicesMade
    rw [collected.order, runtime]
    decide +kernel

end Declaration

end ProtoTypings
