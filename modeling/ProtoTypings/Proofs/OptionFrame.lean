import ProtoTypings.Proofs.ImportTwins

set_option autoImplicit false
set_option relaxedAutoImplicit false

/-!
Options change only what they name. The declarations of a file under two values of an option are
compared after erasing what the option is for: the comments, the keys in plain objects, the gRPC
runtime or the paths of imports. What is left is the same, and failures are the same.
-/

namespace ProtoTypings

def Import.withoutPath (entry : Import) : Import := { entry with path := [] }

namespace Declaration

def MessageFile.change (objectName : Text → Text) (comment : List Text → List Text)
    (file : MessageFile) : MessageFile :=
  { file with toOutline := file.toOutline.change ⟨id, objectName, comment⟩ }

def MessageFile.withoutComments : MessageFile → MessageFile := .change id fun _ => []

def MessageFile.withoutObjectNames : MessageFile → MessageFile := .change (fun _ => []) id

def MessageFile.withoutImportPaths (file : MessageFile) : MessageFile :=
  { file with imports := file.imports.map Import.withoutPath }

def Service.withoutComments (service : Service Method) : Service Method :=
  { service with
    methods := service.methods.map fun method => { method with comment := [] }
    comment := [] }

def ServiceFile.withoutComments (file : ServiceFile) : ServiceFile :=
  { file with services := file.services.map Service.withoutComments }

/-- The declarations without what tells about the gRPC runtime. -/
def ServiceFile.withoutRuntime (file : ServiceFile) : ServiceFile :=
  { file with
    grpcModule := []
    grpcJs := false
    imports := file.imports.modifyHead Import.withoutPath }

def ServiceFile.withoutImportPaths (file : ServiceFile) : ServiceFile :=
  { file with imports := file.imports.map Import.withoutPath }

section

variable {file : Schema.File} {table : SymbolTable} {options options' : Options}
  {objectName objectName' : Text → Text} {comment comment' : List Text → List Text}

private theorem MessageFile.change_id (made : MessageFile) : made.change id id = made := by
  rw [change, Outline.change_id]

private theorem MessageFile.change_ofOutline (outline : Outline FieldType) :
    (ofOutline file outline).change objectName comment =
      ofOutline file (outline.change ⟨id, objectName, comment⟩) := by
  have types : (outline.change ⟨id, objectName, comment⟩).types = outline.types :=
    (outline.types_change _).trans (List.map_id _)
  have imports (taken : List Text) :
      (outline.change ⟨id, objectName, comment⟩).imports taken = outline.imports taken := by
    rw [Outline.imports, Outline.imports, types]
  have spelled (f : FieldType → TypeText) :
      (outline.mapType f).change ⟨id, objectName, comment⟩ =
        (outline.change ⟨id, objectName, comment⟩).mapType f := by
    rw [← Outline.change_type, ← Outline.change_type, Outline.change_change,
      Outline.change_change]
    rfl
  rw [change, ofOutline, ofOutline, imports, ← spelled]

private theorem MessageFile.map_change_ofSchema
    (keys : ∀ name, objectName (options.reserved.escape name) =
      objectName' (options'.reserved.escape name))
    (comments : ∀ text, comment (docLines options.comments text) =
      comment' (docLines options'.comments text)) :
    (MessageFile.ofSchema file table options).map (MessageFile.change objectName comment) =
      (MessageFile.ofSchema file table options').map
        (MessageFile.change objectName' comment') := by
  have alike : Context.Alike ⟨id, objectName, comment⟩ ⟨id, objectName', comment'⟩ file.members
      (Context.ofFile file table options) (Context.ofFile file table options') :=
    { types := fun _ _ => Result.agree_iff_map_eq.mpr rfl
      objectName := keys
      comment := comments
      proto3 := rfl }
  have outlines := congrArg (Except.map (MessageFile.ofOutline file))
    (Result.agree_iff_map_eq.mp alike.outline)
  simp only [MessageFile.ofSchema_eq_map, Result.map_map,
    MessageFile.change_ofOutline] at outlines ⊢
  exact outlines

end

private theorem Service.references_change (f : Resolution → Resolution)
    (comment : List Text → List Text) (service : Service Signature) :
    (service.change f comment).references = service.references.map f := by
  simp only [Service.change, Service.references, List.flatMap_map, List.map_flatMap]
  rfl

private theorem serviceImports_change (f : Resolution → Resolution)
    (comment : List Text → List Text)
    (services : List (Service Signature)) (js : Bool) (taken : List Text) :
    serviceImports (services.map (Service.change f comment)) js taken =
      (runtimeImports js taken).addAll ((services.flatMap Service.references).map f) := by
  rw [serviceImports, List.flatMap_map, List.map_flatMap]
  simp only [Service.references_change]

private theorem Service.spelled_change (comments : Bool) (spell : Resolution → Text)
    (f : Resolution → Resolution) (service : Service Signature) :
    (service.change f id).spelled comments spell = service.spelled comments (spell ∘ f) := by
  simp only [Service.change, Service.spelled, List.map_map]
  rfl

private theorem Service.spelled_congr {comments : Bool} {spell spell' : Resolution → Text}
    {service : Service Signature}
    (same : ∀ target ∈ service.references, spell target = spell' target) :
    service.spelled comments spell = service.spelled comments spell' := by
  have methods : service.methods.map (Method.ofSignature comments spell service.fullName) =
      service.methods.map (Method.ofSignature comments spell' service.fullName) := by
    refine List.map_congr_left fun signature member => ?_
    have request := same signature.request
      (List.mem_flatMap.mpr ⟨signature, member, by simp [Signature.references]⟩)
    have response := same signature.response
      (List.mem_flatMap.mpr ⟨signature, member, by simp [Signature.references]⟩)
    simp only [Method.ofSignature, request, response]
  rw [Service.spelled, Service.spelled, methods]

section

variable {file : Schema.File} {table table' : SymbolTable} {options options' : Options}

private theorem ServiceFile.withoutComments_ofSigned (services : List (Service Signature)) :
    (ServiceFile.ofSigned file { options with comments := true } services).withoutComments =
      ServiceFile.ofSigned file { options with comments := false }
        (services.map (Service.change id fun _ => [])) := by
  have imports : serviceImports (services.map (Service.change id fun _ => [])) options.grpcJs =
      serviceImports services options.grpcJs := by
    funext taken
    rw [serviceImports_change, List.map_id, serviceImports]
  simp only [ServiceFile.ofSigned, ServiceFile.withoutComments, imports, List.map_map]
  congr 1
  refine List.map_congr_left fun service _ => ?_
  simp only [Function.comp_apply, Service.spelled, Service.withoutComments, Service.change,
    List.map_map]
  rfl

private theorem ServiceFile.ofSigned_twins (file : Schema.File) (options options' : Options)
    (comments : options.comments = options'.comments)
    {R : Text → Text → Prop} (unique : Relator.BiUnique R)
    (runtime : R (grpcRuntime options.grpcJs) (grpcRuntime options'.grpcJs))
    {f : Resolution → Resolution} {services : List (Service Signature)}
    (twins : ∀ target ∈ services.flatMap Service.references, target.Twins R (f target)) :
    let made := ServiceFile.ofSigned file options services
    let made' := ServiceFile.ofSigned file options' (services.map (Service.change f id))
    made.services = made'.services ∧ List.Forall₂ (fun entry entry' =>
      entry.name = entry'.name ∧ R entry.path entry'.path) made.imports made'.imports := by
  intro made made'
  have pairs : List.Forall₂ (Resolution.Twins R) (services.flatMap Service.references)
      ((services.flatMap Service.references).map f) :=
    List.forall₂_map_right_iff.mpr (List.forall₂_same.mpr twins)
  have imports (taken : List Text) : (serviceImports services options.grpcJs taken).Twins R
      (serviceImports (services.map (Service.change f id)) options'.grpcJs taken) := by
    rw [serviceImports_change, serviceImports]
    exact (Imports.twins_fixed false _ grpcName runtime).addAll unique pairs
  refine ⟨?_, (imports _).entries⟩
  simp only [made, made', ServiceFile.ofSigned, List.map_map, comments]
  refine List.map_congr_left fun service member => ?_
  rw [Function.comp_apply, Service.spelled_change]
  refine Service.spelled_congr fun target referred => ?_
  exact (imports _).spell unique (twins target (List.mem_flatMap.mpr ⟨service, member, referred⟩))

theorem grpcRuntime_not_suffix (js : Bool) : ¬Text.ofString "_pb" <:+ grpcRuntime js := by
  cases js <;> decide

theorem runtimeModule_not_suffix : ¬Text.ofString "_pb" <:+ runtimeModule := by decide

private theorem serviceImports_entries (services : List (Service Signature)) (js : Bool)
    (taken : List Text) : ∃ rest, (serviceImports services js taken).entries =
      ⟨grpcName, grpcRuntime js⟩ :: rest ∧ ∀ entry ∈ rest, entry.path ≠ grpcRuntime js := by
  have wellFormed : (serviceImports services js taken).WellFormed :=
    (Imports.wellFormed_fixed false _ grpcName (grpcRuntime js)).addAll _
  obtain ⟨rest, entries⟩ :
      [⟨grpcName, grpcRuntime js⟩] <+: (serviceImports services js taken).entries :=
    (Imports.fixed ⟨false, taken ++ [grpcName], []⟩ grpcName
      (grpcRuntime js)).entries_isPrefix_addAll _
  have paths := wellFormed.paths
  rw [← entries, List.map_append, List.map_singleton, List.singleton_append,
    List.nodup_cons] at paths
  exact ⟨rest, entries.symm, fun entry member same =>
    paths.1 (List.mem_map.mpr ⟨entry, member, same⟩)⟩

private theorem ServiceFile.withoutRuntime_ofSigned (js : Bool)
    {services : List (Service Signature)} (modules : ∀ target ∈ services.flatMap Service.references,
      Text.ofString "_pb" <:+ target.importPath) :
    (ServiceFile.ofSigned file { options with grpcJs := js } services).withoutRuntime =
      (ServiceFile.ofSigned file options services).withoutRuntime := by
  have apart (path path' : Text) (same : Path.SameModule path path') :
      path ≠ grpcRuntime js ∧ path' ≠ grpcRuntime options.grpcJs := by
    obtain ⟨rfl, module⟩ := same
    constructor
    · rintro rfl
      exact grpcRuntime_not_suffix js module
    · rintro rfl
      exact grpcRuntime_not_suffix options.grpcJs module
  have twins (target : Resolution) (referred : target ∈ services.flatMap Service.references) :
      target.Twins (Path.Corresponds (grpcRuntime js) (grpcRuntime options.grpcJs)
        Path.SameModule) (id target) :=
    ⟨rfl, rfl, rfl, Or.inr ⟨rfl, modules target referred⟩⟩
  obtain ⟨spelled, imports⟩ := ServiceFile.ofSigned_twins file { options with grpcJs := js } options
    rfl (Path.biUnique_corresponds Path.biUnique_sameModule apart) (Or.inl ⟨rfl, rfl⟩) twins
  have unchanged : services.map (Service.change id id) = services :=
    (List.map_congr_left fun service _ => service.change_id).trans (List.map_id _)
  rw [unchanged] at spelled imports
  obtain ⟨rest, entries, others⟩ := serviceImports_entries services js
    (file.services.flatMap fun service => serviceNames service.name)
  obtain ⟨rest', entries', -⟩ := serviceImports_entries services options.grpcJs
    (file.services.flatMap fun service => serviceNames service.name)
  have first : (ServiceFile.ofSigned file { options with grpcJs := js } services).imports =
      ⟨grpcName, grpcRuntime js⟩ :: rest := entries
  have first' : (ServiceFile.ofSigned file options services).imports =
      ⟨grpcName, grpcRuntime options.grpcJs⟩ :: rest' := entries'
  rw [first, first', List.forall₂_cons] at imports
  have same : List.Forall₂ Eq rest rest' := by
    refine Result.forall₂_imp_of_mem ?_ imports.2
    rintro ⟨name, path⟩ member ⟨name', path'⟩ - ⟨rfl, ⟨own, -⟩ | ⟨rfl, -⟩⟩
    · exact absurd own (others _ member)
    · rfl
  rw [List.forall₂_eq_eq_eq] at same
  rw [ServiceFile.withoutRuntime, ServiceFile.withoutRuntime, spelled, first, first', same]
  rfl

private theorem withoutPath_of_twins {R : Text → Text → Prop} {entries entries' : List Import}
    (pairs : List.Forall₂ (fun entry entry' => entry.name = entry'.name ∧ R entry.path entry'.path)
      entries entries') :
    entries.map Import.withoutPath = entries'.map Import.withoutPath :=
  Result.map_eq_map_iff.mpr (pairs.imp fun _ _ same => congrArg (Import.mk · []) same.1)

private theorem MessageFile.ofOutline_twins (file : Schema.File) {R : Text → Text → Prop}
    (unique : Relator.BiUnique R) (runtime : R runtimeModule runtimeModule)
    {f : Resolution → Resolution} {outline : Outline FieldType} {source : Text}
    (typed : file.members.mapM (FieldType.ofField table source) = .ok outline.types)
    (twins : ∀ type ∈ outline.types, ∀ target, type.reference? = some target →
      target.Twins R (f target)) :
    (ofOutline file outline).withoutImportPaths =
      (ofOutline file (outline.mapType (FieldType.mapTarget f))).withoutImportPaths := by
  have types : (outline.mapType (FieldType.mapTarget f)).types =
      outline.types.map (FieldType.mapTarget f) := by
    rw [← Outline.change_type, Outline.types_change]
  have references : (outline.types.map (FieldType.mapTarget f)).filterMap FieldType.reference? =
      (outline.types.filterMap FieldType.reference?).map f := by
    rw [List.filterMap_map, List.map_filterMap]
    exact List.filterMap_congr fun type _ => type.reference?_mapTarget f
  have imports : (outline.imports (topLevelNames file)).Twins R
      ((outline.mapType (FieldType.mapTarget f)).imports (topLevelNames file)) := by
    rw [Outline.imports, Outline.imports, types, references]
    refine (Imports.twins_fixed true _ runtimeName runtime).addAll unique ?_
    refine List.forall₂_map_right_iff.mpr (List.forall₂_same.mpr fun target member => ?_)
    obtain ⟨type, typeMember, refers⟩ := List.mem_filterMap.mp member
    exact twins type typeMember target refers
  have spelled : outline.mapType (FieldType.spell (outline.imports (topLevelNames file)).spell) =
      (outline.mapType (FieldType.mapTarget f)).mapType (FieldType.spell
        ((outline.mapType (FieldType.mapTarget f)).imports (topLevelNames file)).spell) := by
    rw [Outline.mapType_mapType]
    refine Outline.mapType_congr fun type member => ?_
    obtain ⟨field, -, fieldTyped⟩ := Result.exists_of_mem_mapM typed member
    rw [Function.comp_apply, FieldType.spell_mapTarget]
    exact FieldType.spell_congr fieldTyped fun target refers =>
      imports.spell unique (twins type member target refers)
  have names : (outline.imports (topLevelNames file)).entries.map Import.withoutPath =
      ((outline.mapType (FieldType.mapTarget f)).imports
        (topLevelNames file)).entries.map Import.withoutPath :=
    withoutPath_of_twins imports.entries
  simp only [ofOutline, withoutImportPaths, names, spelled]

/-- A reference with the import path that another style gives it. -/
def retarget (source : Text) (style : ImportStyle) (target : Resolution) : Resolution :=
  { target with importPath := Path.importPath source target.file style }

private theorem alike_retarget (table : SymbolTable) (source : Text) (style : ImportStyle)
    (names : List Text) : SymbolTable.Alike (retarget source style) table
      { table with importStyle := style } source names := by
  intro name _
  have found : SymbolTable.find? { table with importStyle := style } name = table.find? name := rfl
  rw [SymbolTable.resolve, SymbolTable.resolve, found]
  cases table.find? name <;> rfl

/-- References to declarations in files with clean paths. -/
def CleanReferences (table : SymbolTable) (file : Schema.File) : Prop :=
  ∀ name ∈ file.typeNames, ∀ symbol ∈ table.find? name, Path.IsCleanSchema symbol.file

instance (table : SymbolTable) (file : Schema.File) : Decidable (CleanReferences table file) :=
  inferInstanceAs (Decidable (∀ name ∈ file.typeNames, ∀ symbol ∈ table.find? name,
    Path.IsCleanSchema symbol.file))

private theorem CleanReferences.twins (clean : CleanReferences table file) {name : Text}
    (member : name ∈ file.typeNames) {target : Resolution}
    (resolved : table.resolve name file.path = .ok target) (style : ImportStyle)
    (runtime : Text) :
    target.Twins (Path.Corresponds runtime runtime
      (Path.SameTarget file.path table.importStyle style)) (retarget file.path style target) := by
  obtain ⟨found, -, importPath⟩ := SymbolTable.resolve_eq_ok resolved
  exact ⟨rfl, rfl, rfl, Or.inr ⟨target.file, clean name member _ found, importPath, rfl⟩⟩

private theorem biUnique_sameTarget {runtime : Text} (own : ¬Text.ofString "_pb" <:+ runtime)
    (source : Text) (style style' : ImportStyle) :
    Relator.BiUnique (Path.Corresponds runtime runtime (Path.SameTarget source style style')) := by
  refine Path.biUnique_corresponds (Path.biUnique_sameTarget source style style') ?_
  rintro _ _ ⟨target, -, rfl, rfl⟩
  constructor
  · rintro rfl
    exact own (Path.suffix_importPath _ _ _)
  · rintro rfl
    exact own (Path.suffix_importPath _ _ _)

private theorem ServiceFile.reference_resolved {services : List (Service Signature)}
    (signed : file.services.mapM (Service.signatures table file.path options) = .ok services)
    {target : Resolution} (referred : target ∈ services.flatMap Service.references) :
    ∃ name ∈ file.typeNames, table.resolve name file.path = .ok target := by
  obtain ⟨made, madeMember, inService⟩ := List.mem_flatMap.mp referred
  obtain ⟨service, member, serviceSigned⟩ := Result.exists_of_mem_mapM signed madeMember
  obtain ⟨signature, signatureMember, inSignature⟩ := List.mem_flatMap.mp inService
  have methods := Result.mapM_eq_ok.mpr (Service.signatures_eq_ok serviceSigned)
  obtain ⟨method, methodMember, methodSigned⟩ := Result.exists_of_mem_mapM methods signatureMember
  obtain ⟨-, request, response⟩ := Signature.ofSchema_eq_ok methodSigned
  have inFile {name : Text} (named : name ∈ method.typeNames) : name ∈ file.typeNames :=
    List.mem_append_right _ (List.mem_flatMap.mpr
      ⟨service, member, List.mem_flatMap.mpr ⟨method, methodMember, named⟩⟩)
  rcases List.mem_pair.mp inSignature with rfl | rfl
  · exact ⟨method.inputType, inFile (by simp [Schema.Method.typeNames]),
      (SymbolTable.resolveMessage_eq_ok request).1⟩
  · exact ⟨method.outputType, inFile (by simp [Schema.Method.typeNames]),
      (SymbolTable.resolveMessage_eq_ok response).1⟩

private theorem docLines_unwanted (text : Text) : docLines false text = [] := rfl

private theorem MessageFile.ofSchema_comments :
    (MessageFile.ofSchema file table { options with comments := true }).map
        MessageFile.withoutComments =
      MessageFile.ofSchema file table { options with comments := false } := by
  have same : (MessageFile.ofSchema file table { options with comments := true }).map
      (MessageFile.change id fun _ => []) =
      (MessageFile.ofSchema file table { options with comments := false }).map
        (MessageFile.change id id) :=
    MessageFile.map_change_ofSchema (fun _ => rfl) fun text => (docLines_unwanted text).symm
  have whole : MessageFile.change id id = id := funext MessageFile.change_id
  rwa [whole, Except.map_id] at same

private theorem ServiceFile.ofSchema_comments :
    (ServiceFile.ofSchema file table { options with comments := true }).map
        (Option.map ServiceFile.withoutComments) =
      ServiceFile.ofSchema file table { options with comments := false } := by
  have signatures := ServiceFile.signatures_agree (table.alike_id file.path file.typeNames)
    (fun _ => rfl) { options with comments := true } { options with comments := false }
    (fun _ => []) fun text => (docLines_unwanted text).symm
  have same : (ServiceFile.ofSchema file table { options with comments := true }).map
      (Option.map ServiceFile.withoutComments) =
      (ServiceFile.ofSchema file table { options with comments := false }).map (Option.map id) :=
    ServiceFile.map_ofSchema <| signatures.mono fun services services' _ changed => by
      rw [ServiceFile.withoutComments_ofSigned, changed, id]
  rwa [Option.map_id, Except.map_id] at same

private theorem MessageFile.ofSchema_reserved (policy : ReservedPolicy) :
    (MessageFile.ofSchema file table { options with reserved := policy }).map
        MessageFile.withoutObjectNames =
      (MessageFile.ofSchema file table options).map MessageFile.withoutObjectNames :=
  MessageFile.map_change_ofSchema (fun _ => rfl) fun _ => rfl

private theorem ServiceFile.ofSchema_grpcJs (js : Bool) :
    (ServiceFile.ofSchema file table { options with grpcJs := js }).map
        (Option.map ServiceFile.withoutRuntime) =
      (ServiceFile.ofSchema file table options).map (Option.map ServiceFile.withoutRuntime) := by
  have signatures :
      file.services.mapM (Service.signatures table file.path { options with grpcJs := js }) =
        file.services.mapM (Service.signatures table file.path options) := rfl
  refine ServiceFile.map_ofSchema ?_
  rw [signatures]
  refine (Result.agree_iff_eq.mpr rfl).mono fun services _ signed same => ?_
  subst same
  refine ServiceFile.withoutRuntime_ofSigned js fun target referred => ?_
  obtain ⟨name, -, resolved⟩ := ServiceFile.reference_resolved signed referred
  obtain ⟨-, -, importPath⟩ := SymbolTable.resolve_eq_ok resolved
  exact importPath ▸ Path.suffix_importPath _ _ _

private theorem MessageFile.ofSchema_style (clean : CleanReferences table file)
    (style : ImportStyle) :
    (MessageFile.ofSchema file { table with importStyle := style } options).map
        MessageFile.withoutImportPaths =
      (MessageFile.ofSchema file table options).map MessageFile.withoutImportPaths := by
  have outlines := Context.outline_agree
    (alike_retarget table file.path style file.typeNames) (fun _ => rfl) options
  rw [MessageFile.ofSchema_eq_map, MessageFile.ofSchema_eq_map, Result.map_map, Result.map_map]
  refine (Result.agree_iff_map_eq.mp (outlines.mono fun outline outline' made same => ?_)).symm
  subst same
  have typed := Context.types_outline made
  have unique := biUnique_sameTarget runtimeModule_not_suffix file.path table.importStyle style
  refine MessageFile.ofOutline_twins file unique (Or.inl ⟨rfl, rfl⟩) typed ?_
  intro type member target refers
  obtain ⟨field, fieldMember, fieldTyped⟩ := Result.exists_of_mem_mapM typed member
  obtain ⟨name, nameMember, resolved⟩ := FieldType.reference_eq_some fieldTyped refers
  have inFile : name ∈ file.typeNames :=
    List.mem_append_left _ (List.mem_flatMap.mpr ⟨field, fieldMember, nameMember⟩)
  exact clean.twins inFile resolved style _

private theorem ServiceFile.ofSchema_style (clean : CleanReferences table file)
    (style : ImportStyle) :
    (ServiceFile.ofSchema file { table with importStyle := style } options).map
        (Option.map ServiceFile.withoutImportPaths) =
      (ServiceFile.ofSchema file table options).map
        (Option.map ServiceFile.withoutImportPaths) := by
  have signatures := ServiceFile.signatures_agree
    (alike_retarget table file.path style file.typeNames) (fun _ => rfl) options options
    id fun _ => rfl
  refine (ServiceFile.map_ofSchema (signatures.mono fun services services' signed same => ?_)).symm
  subst same
  have unique := biUnique_sameTarget (grpcRuntime_not_suffix options.grpcJs) file.path
    table.importStyle style
  have twins (target : Resolution) (referred : target ∈ services.flatMap Service.references) :
      target.Twins (Path.Corresponds (grpcRuntime options.grpcJs) (grpcRuntime options.grpcJs)
        (Path.SameTarget file.path table.importStyle style)) (retarget file.path style target) := by
    obtain ⟨name, member, resolved⟩ := ServiceFile.reference_resolved signed referred
    exact clean.twins member resolved style _
  obtain ⟨spelled, imports⟩ :=
    ServiceFile.ofSigned_twins file options options rfl unique (Or.inl ⟨rfl, rfl⟩) twins
  rw [ServiceFile.withoutImportPaths, ServiceFile.withoutImportPaths,
    withoutPath_of_twins imports, spelled]
  rfl

end

/-- Under two values of an option, the declarations of a file differ in nothing but what the option
is for, and they fail alike. -/
theorem options_frame (file : Schema.File) (table : SymbolTable) (options : Options) :
    ((MessageFile.ofSchema file table { options with comments := true }).map
          MessageFile.withoutComments =
        MessageFile.ofSchema file table { options with comments := false } ∧
      (ServiceFile.ofSchema file table { options with comments := true }).map
          (Option.map ServiceFile.withoutComments) =
        ServiceFile.ofSchema file table { options with comments := false }) ∧
    (∀ policy,
      (MessageFile.ofSchema file table { options with reserved := policy }).map
          MessageFile.withoutObjectNames =
        (MessageFile.ofSchema file table options).map MessageFile.withoutObjectNames ∧
      ServiceFile.ofSchema file table { options with reserved := policy } =
        ServiceFile.ofSchema file table options) ∧
    (∀ js,
      MessageFile.ofSchema file table { options with grpcJs := js } =
        MessageFile.ofSchema file table options ∧
      (ServiceFile.ofSchema file table { options with grpcJs := js }).map
          (Option.map ServiceFile.withoutRuntime) =
        (ServiceFile.ofSchema file table options).map (Option.map ServiceFile.withoutRuntime)) ∧
    (CleanReferences table file → ∀ style,
      (MessageFile.ofSchema file { table with importStyle := style }
          { options with importStyle := style }).map MessageFile.withoutImportPaths =
        (MessageFile.ofSchema file table options).map MessageFile.withoutImportPaths ∧
      (ServiceFile.ofSchema file { table with importStyle := style }
          { options with importStyle := style }).map (Option.map ServiceFile.withoutImportPaths) =
        (ServiceFile.ofSchema file table options).map
          (Option.map ServiceFile.withoutImportPaths)) := by
  refine ⟨⟨MessageFile.ofSchema_comments, ServiceFile.ofSchema_comments⟩, fun policy => ⟨?_, ?_⟩,
    fun js => ⟨?_, ?_⟩, fun clean style => ⟨?_, ?_⟩⟩
  · exact MessageFile.ofSchema_reserved policy
  · exact ServiceFile.ofSchema_congr (fun _ _ _ _ => rfl) rfl rfl
  · exact MessageFile.ofSchema_congr (fun _ _ => rfl) rfl rfl
  · exact ServiceFile.ofSchema_grpcJs js
  · rw [← MessageFile.ofSchema_style clean style]
    exact congrArg _ (MessageFile.ofSchema_congr (fun _ _ => rfl) rfl rfl)
  · rw [← ServiceFile.ofSchema_style clean style]
    exact congrArg _ (ServiceFile.ofSchema_congr (fun _ _ _ _ => rfl) rfl rfl)

/-- A file that refers to two others whose modules have the same preferred name. -/
def crossroads : Schema.File where
  path := "a/b.proto"
  messages := [{
    name := "M"
    fullName := ".M"
    fields := [
      { name := "x", kind := .message, typeName := ".X" },
      { name := "y", kind := .enum, typeName := ".Y" }] }]

def crossroadsTable : SymbolTable where
  symbols := [⟨".M", "a/b.proto", "M", .message⟩, ⟨".X", "a/c.proto", "X", .message⟩,
    ⟨".Y", "a_c.proto", "Y", .enum⟩]

theorem options_frame_crossroads :
    let relative := { crossroadsTable with importStyle := .relative }
    CleanReferences crossroadsTable crossroads ∧
    (MessageFile.ofSchema crossroads crossroadsTable {}).map (·.imports) =
      .ok [⟨"jspb", "google-protobuf"⟩, ⟨"a_c_pb", "../a/c_pb"⟩, ⟨"a_c_pb_1", "../a_c_pb"⟩] ∧
    (MessageFile.ofSchema crossroads relative { importStyle := .relative }).map (·.imports) =
      .ok [⟨"jspb", "google-protobuf"⟩, ⟨"a_c_pb", "./c_pb"⟩, ⟨"a_c_pb_1", "../a_c_pb"⟩] ∧
    (MessageFile.ofSchema crossroads relative { importStyle := .relative }).map
        MessageFile.withoutImportPaths =
      (MessageFile.ofSchema crossroads crossroadsTable {}).map MessageFile.withoutImportPaths := by
  have clean : CleanReferences crossroadsTable crossroads := by decide
  exact ⟨clean, rfl, rfl, ((options_frame crossroads crossroadsTable {}).2.2.2 clean .relative).1⟩

end Declaration

end ProtoTypings
