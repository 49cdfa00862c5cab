import ProtoTypings.Proofs.FieldType
import ProtoTypings.Proofs.Imports
import ProtoTypings.Proofs.Outline
import ProtoTypings.Proofs.SymbolTable

set_option autoImplicit false
set_option relaxedAutoImplicit false

/-!
References are sound: every type in the declarations that refers to a message or an enum names the
symbol its schema element asks for, by the bare name where that is in scope, and else through the
only import of the module that declares it.
-/

namespace ProtoTypings

/-- A file of declarations, as far as the references in it depend on it. -/
structure Site where
  table : SymbolTable
  style : ImportStyle
  /-- The path of the schema file. -/
  source : Text
  imports : List Import

def Schema.Field.keyText (key : Schema.Field) : Text :=
  match key.kind with
  | .scalar .bool => "boolean"
  | .scalar .string => "string"
  | .scalar scalar =>
    if ElementType.is64Bit scalar = true ∧ key.jsType = .string then "string" else "number"
  | _ => []

/-- The type in accessors of a value that refers to a declaration by a spelling. -/
def SymbolKind.valueText : SymbolKind → Text → Text
  | .enum, spelling => spelling ++ "Map[keyof " ++ spelling ++ "Map]"
  | .message, spelling => spelling

/-- The type in plain objects of a value that refers to a declaration by a spelling. -/
def SymbolKind.objectText : SymbolKind → Text → Text
  | .enum, spelling => spelling ++ "Map[keyof " ++ spelling ++ "Map]"
  | .message, spelling => spelling ++ ".AsObject"

namespace Site

/-- A spelling that names a symbol through the only import of its module. -/
def Imported (site : Site) (symbol : Symbol) (spelling : Text) : Prop :=
  ∃ name : Text,
    Import.OnlyOneIn ⟨name, Path.importPath site.source symbol.file site.style⟩ site.imports ∧
      spelling = name ++ Text.dot :: symbol.name

/-- A spelling that names a symbol where the symbols of the file itself are in scope. -/
def Spelled (site : Site) (symbol : Symbol) (spelling : Text) : Prop :=
  if symbol.file = site.source then spelling = symbol.name else site.Imported symbol spelling

/-- The types of a single value that refers to the symbol of a kind with a full name. -/
def RefersTo (site : Site) (kind : SymbolKind) (typeName value object : Text) : Prop :=
  ∃ symbol spelling, site.table.find? typeName = some symbol ∧ symbol.kind = kind ∧
    site.Spelled symbol spelling ∧
    value = kind.valueText spelling ∧ object = kind.objectText spelling

/-- The types of a field are built from the symbol that the field names, or that the values of the
map name. -/
structure FieldRefers (site : Site) (field : Schema.Field) (type : TypeText) : Prop where
  direct : ∀ kind, field.kind.symbolKind? = some kind →
    ∃ value object, site.RefersTo kind field.typeName value object ∧
      type = if field.isRepeated then
          ⟨FieldType.arrayOf value, FieldType.arrayOf object, value⟩
        else ⟨value, object, []⟩
  map : field.kind = .map → ∀ entry ∈ field.map, ∀ element ∈ entry.value, ∀ kind,
    element.kind.symbolKind? = some kind →
    ∃ key value object, entry.key = some key ∧
      site.RefersTo kind element.typeName value object ∧
      type = ⟨"jspb.Map<" ++ key.keyText ++ ", " ++ value ++ ">",
        FieldType.arrayOf ("[" ++ key.keyText ++ ", " ++ object ++ "]"), []⟩

/-- The type of a request or response is the imported message that the method names. -/
def MethodRefers (site : Site) (typeName type : Text) : Prop :=
  ∃ symbol, site.table.find? typeName = some symbol ∧ symbol.kind = .message ∧
    site.Imported symbol type

end Site

section

variable {table : SymbolTable} {source : Text} {spell : Resolution → Text}

@[simp] theorem SymbolKind.value_elementType (kind : SymbolKind) (target : Resolution) :
    (kind.elementType target).value spell = kind.valueText (spell target) := by
  cases kind <;> rfl

@[simp] theorem SymbolKind.object_elementType (kind : SymbolKind) (target : Resolution) :
    (kind.elementType target).object spell = kind.objectText (spell target) := by
  cases kind <;> rfl

private theorem ElementType.value_key {owner : Text} {key : Schema.Field} {type : ElementType}
    (typed : ofField table source owner key = .ok type)
    (allowed : FieldType.isKeyKind key.kind = true) : type.value spell = key.keyText := by
  rcases ofField_cases typed with ⟨scalar, kind, rfl⟩ | ⟨kind, target, refers, -⟩
  · rw [kind] at allowed
    rw [Schema.Field.keyText, kind]
    cases scalar with
    | double | float | bytes => simp [FieldType.isKeyKind] at allowed
    | bool | string => rfl
    | _ => cases key.jsType <;> rfl
  · cases fieldKind : key.kind <;> simp [fieldKind, FieldType.isKeyKind] at allowed
    simp [fieldKind, Schema.FieldKind.symbolKind?] at refers

theorem FieldType.resolved_reference {field : Schema.Field} {type : FieldType}
    (typed : ofField table source field = .ok type) {target : Resolution}
    (refers : type.reference? = some target) :
    ∃ typeName, table.resolve typeName source = .ok target := by
  have resolved {owner : Text} {single : Schema.Field} {element : ElementType}
      (elementTyped : ElementType.ofField table source owner single = .ok element)
      (elementRefers : element.reference? = some target) :
      ∃ typeName, table.resolve typeName source = .ok target := by
    rcases ElementType.ofField_cases elementTyped with
      ⟨scalar, -, rfl⟩ | ⟨kind, found, -, foundResolved, -, rfl⟩
    · simp at elementRefers
    · obtain rfl : found = target := by simpa using elementRefers
      exact ⟨single.typeName, foundResolved⟩
  rcases ofField_cases typed with ⟨-, element, elementTyped, rfl⟩ |
    ⟨-, key, value, keyType, valueType, -, -, -, valueTyped, rfl⟩
  · refine resolved elementTyped ?_
    split at refers <;> exact refers
  · exact resolved valueTyped refers

end

namespace Site

private theorem refersTo_of_spelled {site : Site} {spell : Resolution → Text} {owner : Text}
    {field : Schema.Field} {type : ElementType}
    (typed : ElementType.ofField site.table site.source owner field = .ok type)
    (spelled : ∀ target, type.reference? = some target →
      site.Spelled target.toSymbol (spell target))
    {kind : SymbolKind} (refers : field.kind.symbolKind? = some kind) :
    site.RefersTo kind field.typeName (type.value spell) (type.object spell) := by
  rcases ElementType.ofField_cases typed with
    ⟨scalar, fieldKind, -⟩ | ⟨other, target, fieldRefers, resolved, targetKind, rfl⟩
  · simp [fieldKind, Schema.FieldKind.symbolKind?] at refers
  · obtain rfl : other = kind := Option.some.inj (fieldRefers.symm.trans refers)
    refine ⟨target.toSymbol, spell target, (SymbolTable.resolve_eq_ok resolved).1, targetKind,
      spelled target (by simp), by simp, by simp⟩

private theorem fieldRefers_of_spelled {site : Site} {spell : Resolution → Text}
    {field : Schema.Field}
    {type : FieldType} (typed : FieldType.ofField site.table site.source field = .ok type)
    (spelled : ∀ target, type.reference? = some target →
      site.Spelled target.toSymbol (spell target)) :
    site.FieldRefers field (type.spell spell) := by
  rcases FieldType.ofField_cases typed with ⟨notMap, element, elementTyped, rfl⟩ |
    ⟨isMap, key, value, keyType, valueType, entry, allowed, keyTyped, valueTyped, rfl⟩
  · refine ⟨fun kind refers => ?_, fun isMap => absurd isMap notMap⟩
    refine ⟨element.value spell, element.object spell,
      refersTo_of_spelled elementTyped ?_ refers, ?_⟩
    · intro target elementRefers
      refine spelled target ?_
      split <;> exact elementRefers
    · split <;> rfl
  · refine ⟨fun kind refers => ?_, ?_⟩
    · simp [isMap, Schema.FieldKind.symbolKind?] at refers
    · intro _ found foundEntry element elementFound kind refers
      obtain rfl : (⟨some key, some value⟩ : Schema.MapEntry Schema.Field) = found :=
        Option.some.inj (entry.symm.trans foundEntry)
      obtain rfl : value = element := Option.some.inj elementFound
      refine ⟨key, _, _, rfl, refersTo_of_spelled valueTyped spelled refers, ?_⟩
      rw [FieldType.spell, ElementType.value_key keyTyped allowed]

private theorem spell_recorded {table : SymbolTable} {source typeName : Text}
    {target : Resolution} (resolved : table.resolve typeName source = .ok target)
    (ownInScope : Bool) (taken : List Text) (name path : Text) {targets : List Resolution}
    (recorded : target ∈ targets) {imports : Imports}
    (collected : imports = (Imports.fixed ⟨ownInScope, taken, []⟩ name path).addAll targets) :
    if ownInScope = true ∧ target.file = source then imports.spell target = target.name
    else Imported ⟨table, table.importStyle, source, imports.entries⟩ target.toSymbol
      (imports.spell target) := by
  have wellFormed : imports.WellFormed :=
    collected ▸ (Imports.wellFormed_fixed ownInScope taken name path).addAll targets
  have provided : imports.Provides target := collected ▸ Imports.provides_addAll _ recorded
  obtain ⟨-, isLocal, importPath⟩ := SymbolTable.resolve_eq_ok resolved
  have scope : imports.inScope target = true ↔ ownInScope = true ∧ target.file = source := by
    rw [collected, Imports.inScope_addAll]
    change (target.isLocal && ownInScope) = true ↔ _
    rw [isLocal, Bool.and_eq_true, decide_eq_true_iff, and_comm]
  rcases wellFormed.spell_cases provided with ⟨inScope, bare⟩ | ⟨outOfScope, name, only, dotted⟩
  · rw [if_pos (scope.mp inScope)]
    exact bare
  · rw [if_neg (mt scope.mpr (by simp [outOfScope]))]
    exact ⟨name, importPath ▸ only, dotted⟩

end Site

namespace Declaration

theorem Outline.spelled_reference {outline : Outline FieldType} {taken : List Text}
    {table : SymbolTable} {source : Text} {type : FieldType} (member : type ∈ outline.types)
    {target : Resolution} (refers : type.reference? = some target) {typeName : Text}
    (resolved : table.resolve typeName source = .ok target) :
    Site.Spelled ⟨table, table.importStyle, source, (outline.imports taken).entries⟩
      target.toSymbol ((outline.imports taken).spell target) := by
  have recorded : target ∈ outline.types.filterMap FieldType.reference? :=
    List.mem_filterMap.mpr ⟨type, member, refers⟩
  have spelled := Site.spell_recorded resolved true taken runtimeName runtimeModule recorded
    (show outline.imports taken = _ from rfl)
  simpa only [Site.Spelled, true_and] using spelled

private theorem imported_reference {services : List (Service Signature)} {js : Bool}
    {taken : List Text} {table : SymbolTable} {source : Text} {target : Resolution}
    (member : target ∈ services.flatMap Service.references) {typeName : Text}
    (resolved : table.resolveMessage typeName source = .ok target) :
    Site.MethodRefers ⟨table, table.importStyle, source, (serviceImports services js taken).entries⟩
      typeName ((serviceImports services js taken).spell target) := by
  obtain ⟨found, kind⟩ := SymbolTable.resolveMessage_eq_ok resolved
  have spelled := Site.spell_recorded found false (taken ++ [grpcName]) grpcName (grpcRuntime js)
    member (show serviceImports services js taken = _ from rfl)
  refine ⟨target.toSymbol, (SymbolTable.resolve_eq_ok found).1, kind, ?_⟩
  simpa only [Bool.false_eq_true, false_and, if_false] using spelled

private theorem Outline.fieldRefers {outline : Outline FieldType} {taken : List Text}
    {table : SymbolTable} {source : Text} {field : Schema.Field} {type : FieldType}
    (typed : FieldType.ofField table source field = .ok type) (member : type ∈ outline.types) :
    Site.FieldRefers ⟨table, table.importStyle, source, (outline.imports taken).entries⟩ field
      (type.spell (outline.imports taken).spell) := by
  refine Site.fieldRefers_of_spelled typed fun target refers => ?_
  obtain ⟨typeName, resolved⟩ := FieldType.resolved_reference typed refers
  exact spelled_reference member refers resolved

def ServiceRefers (site : Site) (service : Schema.Service) (declared : Service Method) : Prop :=
  List.Forall₂ (fun method made => site.MethodRefers method.inputType made.requestType ∧
    site.MethodRefers method.outputType made.responseType) service.methods declared.methods

def MessageRefers (site : Site) (message : Schema.Message) (declared : Message TypeText) : Prop :=
  List.Forall₂ (fun field made => site.FieldRefers field made.type)
    message.fields declared.fields ∧
  List.Forall₂ (fun field made => site.FieldRefers field made.type)
    message.extensions declared.extensions

private theorem MessageFile.refers {file : Schema.File} {table : SymbolTable} {options : Options}
    {emitted : MessageFile} (made : MessageFile.ofSchema file table options = .ok emitted) :
    (∀ position message, file.messageAt? position = some message →
      ∃ declared, emitted.messageAt? position = some declared ∧
        MessageRefers ⟨table, table.importStyle, file.path, emitted.imports⟩ message declared) ∧
    List.Forall₂ (fun field made =>
        Site.FieldRefers ⟨table, table.importStyle, file.path, emitted.imports⟩ field made.type)
      file.extensions emitted.extensions := by
  obtain ⟨outline, outlined, rfl⟩ := MessageFile.ofSchema_eq_ok made
  constructor
  · intro position message found
    obtain ⟨outlineHere, foundHere, scope, outlinedHere⟩ := outlined.messageAt? found
    have contained := Outline.types_messageAt? foundHere
    rw [Message.types_eq] at contained
    refine ⟨_, Outline.messageAt?_mapType _ foundHere, ?_, ?_⟩
    · rw [Message.fields_mapType, List.forall₂_map_right_iff]
      refine Result.forall₂_imp_of_mem (fun field _ made member fieldMade => ?_) outlinedHere.fields
      exact Outline.fieldRefers (Context.field_eq_ok fieldMade)
        (contained (List.mem_append_left _ (List.mem_map_of_mem member)))
    · rw [Message.extensions_mapType, List.forall₂_map_right_iff]
      refine Result.forall₂_imp_of_mem (fun field _ made member fieldMade => ?_)
        outlinedHere.extensions
      exact Outline.fieldRefers (Context.extension_eq_ok fieldMade)
        (contained (List.mem_append_right _ (List.mem_append_right _ (List.mem_map_of_mem member))))
  · refine List.forall₂_map_right_iff.mpr (Result.forall₂_imp_of_mem
      (fun field _ made member fieldMade => ?_) outlined.extensions)
    exact Outline.fieldRefers (Context.extension_eq_ok fieldMade)
      (List.mem_append_right _ (List.mem_map_of_mem member))

private theorem ServiceFile.refers {file : Schema.File} {table : SymbolTable} {options : Options}
    {emitted : ServiceFile} (made : ServiceFile.ofSchema file table options = .ok (some emitted)) :
    List.Forall₂ (ServiceRefers ⟨table, table.importStyle, file.path, emitted.imports⟩)
      file.services emitted.services := by
  obtain ⟨services, taken, -, signed, rfl⟩ := ServiceFile.ofSchema_eq_ok made
  rw [List.forall₂_map_right_iff]
  refine Result.forall₂_imp_of_mem (fun service _ signedService member signatures => ?_) signed
  refine List.forall₂_map_right_iff.mpr (Result.forall₂_imp_of_mem
    (fun method _ signature signatureMember made => ?_) (Service.signatures_eq_ok signatures))
  obtain ⟨-, request, response⟩ := Signature.ofSchema_eq_ok made
  have recorded : signature.references ⊆ services.flatMap Service.references := fun target named =>
    List.mem_flatMap.mpr ⟨signedService, member,
      List.mem_flatMap.mpr ⟨signature, signatureMember, named⟩⟩
  exact ⟨imported_reference (recorded (by simp [Signature.references])) request,
    imported_reference (recorded (by simp [Signature.references])) response⟩

/-- References are sound. Whatever the style of imports, every field, extension and method that
refers to a declaration is given types built from the symbol it names, as that symbol is called in
the file. -/
theorem references_sound {style : ImportStyle} {files : List Schema.File} {table : SymbolTable}
    (built : SymbolTable.ofFiles style files = .ok table) (file : Schema.File)
    (options : Options) :
    (∀ emitted, MessageFile.ofSchema file table options = .ok emitted →
      (∀ position message, file.messageAt? position = some message →
        ∃ declared, emitted.messageAt? position = some declared ∧
          MessageRefers ⟨table, style, file.path, emitted.imports⟩ message declared) ∧
      List.Forall₂ (fun field made =>
          Site.FieldRefers ⟨table, style, file.path, emitted.imports⟩ field made.type)
        file.extensions emitted.extensions) ∧
    ∀ emitted, ServiceFile.ofSchema file table options = .ok (some emitted) →
      List.Forall₂ (ServiceRefers ⟨table, style, file.path, emitted.imports⟩)
        file.services emitted.services := by
  obtain rfl : table.importStyle = style := by
    rw [(SymbolTable.ofFiles_eq_ok built).1]
  exact ⟨fun emitted made => MessageFile.refers made, fun emitted made => ServiceFile.refers made⟩

/-- Two schema files. The first one refers to its own nested message, to an enum and a message of
the second one, and has a service. -/
def orderFiles : List Schema.File :=
  [{ path := "shop/order.proto"
     package := "shop"
     messages := [{
       name := "Order"
       fullName := ".shop.Order"
       fields := [
         { name := "lines", kind := .message, cardinality := .repeated,
           typeName := ".shop.Order.Line" },
         { name := "items", kind := .map, cardinality := .repeated,
           map := some ⟨some { kind := .scalar .string },
             some { kind := .message, typeName := ".stock.Item" }⟩ }]
       messages := [{
         name := "Line"
         fullName := ".shop.Order.Line"
         fields := [{ name := "state", kind := .enum, typeName := ".stock.State" }] }] }]
     services := [{
       name := "Shop"
       fullName := ".shop.Shop"
       methods := [{ name := "Place", inputType := ".shop.Order", outputType := ".stock.Item" }] }] },
   { path := "stock/item.proto"
     package := "stock"
     messages := [{ name := "Item", fullName := ".stock.Item" }]
     enums := [{ name := "State", fullName := ".stock.State" }] }]

theorem references_sound_orderFiles :
    ∃ table file messages services, SymbolTable.ofFiles .fromRoot orderFiles = .ok table ∧
      file ∈ orderFiles ∧ MessageFile.ofSchema file table {} = .ok messages ∧
      ServiceFile.ofSchema file table {} = .ok (some services) ∧
      (∃ line declared, file.messageAt? [0, 0] = some line ∧
        messages.messageAt? [0, 0] = some declared ∧
        MessageRefers ⟨table, .fromRoot, file.path, messages.imports⟩ line declared) ∧
      List.Forall₂ (ServiceRefers ⟨table, .fromRoot, file.path, services.imports⟩)
        file.services services.services := by
  have built : SymbolTable.ofFiles .fromRoot orderFiles =
    .ok ⟨Symbol.ofFiles orderFiles, .fromRoot⟩ := rfl
  have messages : ∃ emitted, MessageFile.ofSchema orderFiles[0]
    ⟨Symbol.ofFiles orderFiles, .fromRoot⟩ {} = .ok emitted := ⟨_, rfl⟩
  have services : ∃ emitted, ServiceFile.ofSchema orderFiles[0]
    ⟨Symbol.ofFiles orderFiles, .fromRoot⟩ {} = .ok (some emitted) := ⟨_, rfl⟩
  obtain ⟨messages, messagesMade⟩ := messages
  obtain ⟨services, servicesMade⟩ := services
  have sound := references_sound built orderFiles[0] {}
  refine ⟨_, _, messages, services, built, List.getElem_mem _, messagesMade, servicesMade, ?_,
    sound.2 services servicesMade⟩
  obtain ⟨declared, found, refers⟩ := (sound.1 messages messagesMade).1 [0, 0] _ rfl
  exact ⟨_, declared, rfl, found, refers⟩

end Declaration

end ProtoTypings
