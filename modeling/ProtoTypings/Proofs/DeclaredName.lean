import ProtoTypings.Proofs.Conversion
import ProtoTypings.Proofs.Outline
import ProtoTypings.Proofs.SymbolTable

set_option autoImplicit false
set_option relaxedAutoImplicit false

/-!
The symbol table and the declarations agree on where everything is declared. The full name of a
message grows with the converter, the name of its symbol with the table and the name of its
declaration with the outline; a scope that all three share ties them together.
-/

namespace ProtoTypings

/-- The full name of a scope inside a package, or of the package itself if the scope is empty. -/
def fullScope (package scope : Text) : Text :=
  if scope = [] then Schema.packageScope package
  else Schema.packageScope package ++ Text.dot :: scope

private theorem fullScope_dot (package scope name : Text) :
    fullScope package scope ++ Text.dot :: name =
      Schema.packageScope package ++ Text.dot :: Identifier.qualified scope name := by
  unfold fullScope Identifier.qualified
  split <;> simp

private theorem qualified_ne_nil {scope name : Text} (named : name ≠ []) :
    Identifier.qualified scope name ≠ [] := by
  unfold Identifier.qualified
  split <;> simp [named]

private theorem fullScope_qualified (package scope : Text) {name : Text} (named : name ≠ []) :
    fullScope package (Identifier.qualified scope name) =
      fullScope package scope ++ Text.dot :: name := by
  rw [fullScope_dot, fullScope, if_neg (qualified_ne_nil named)]

/-- A message of a descriptor that has a name, like all messages inside it. -/
structure Descriptor.Message.Named (raw : Descriptor.Message) : Prop where
  own : raw.name ≠ []
  below : ∀ position message,
    nodeAt? Descriptor.Message.nested raw.nested position = some message → message.name ≠ []

private theorem Descriptor.Message.named_of_mem {raws : List Descriptor.Message}
    (named : ∀ position message,
      nodeAt? Descriptor.Message.nested raws position = some message → message.name ≠ [])
    {raw : Descriptor.Message} (member : raw ∈ raws) : raw.Named := by
  obtain ⟨index, found⟩ := List.mem_iff_getElem?.mp member
  refine ⟨named [index] raw found, fun position message below => ?_⟩
  exact named (index :: position) message (nodeAt?_below found below)

namespace Symbol

theorem ofMessages_eq_flatMap (file scope : Text) (messages : List Schema.Message) :
    ofMessages file scope messages = messages.flatMap (ofMessage file scope) := by
  induction messages with
  | nil => rfl
  | cons message rest ih => rw [ofMessages, ih, List.flatMap_cons]

theorem ofMessage_eq (file scope : Text) (message : Schema.Message) :
    ofMessage file scope message =
      ⟨message.fullName, file, Identifier.qualified scope message.name, .message⟩ ::
        (message.messages.flatMap (ofMessage file (Identifier.qualified scope message.name)) ++
          ofEnums file (Identifier.qualified scope message.name) message.enums) := by
  cases message
  rw [ofMessage, ofMessages_eq_flatMap]

end Symbol

namespace Declaration

/-- The table finds a message or enum of a file by its full name, in that file and under the name of
its declaration, and the full name is that name inside the package. -/
structure Agree (table : SymbolTable) (file : Schema.File) (kind : SymbolKind)
    (fullName declaredName : Text) : Prop where
  found : table.find? fullName = some ⟨fullName, file.path, declaredName, kind⟩
  spelled : fullName =
    if file.package = [] then Text.dot :: declaredName
    else Text.dot :: (file.package ++ Text.dot :: declaredName)

section

variable {table : SymbolTable} {file : Schema.File} {context : Context}

private theorem agree_of_mem (distinct : table.Distinct) {scope name fullName : Text}
    {kind : SymbolKind}
    (member : ⟨fullName, file.path, Identifier.qualified scope name, kind⟩ ∈ table.symbols)
    (inside : fullName = fullScope file.package scope ++ Text.dot :: name) :
    Agree table file kind fullName (Identifier.qualified scope name) := by
  refine ⟨(SymbolTable.find?_eq_some_iff distinct).mpr ⟨member, rfl⟩, ?_⟩
  rw [inside, fullScope_dot, Schema.packageScope]
  split <;> simp

private theorem agree_enums (distinct : table.Distinct) {scope : Text} {enums : List Schema.Enum}
    (members : Symbol.ofEnums file.path scope enums ⊆ table.symbols)
    (inside : ∀ enum ∈ enums,
      enum.fullName = fullScope file.package scope ++ Text.dot :: enum.name) :
    List.Forall₂ (fun enum declared => Agree table file .enum enum.fullName declared.declaredName)
      enums (enums.map (context.enum scope)) := by
  rw [List.forall₂_map_right_iff, List.forall₂_same]
  intro enum member
  exact agree_of_mem distinct (members (List.mem_map_of_mem member)) (inside enum member)

/-- The scope that a message of the file, its symbol and its outline share. -/
structure SharedScope (table : SymbolTable) (file : Schema.File) (context : Context) (scope : Text)
    (message : Schema.Message) (outline : Message FieldType) : Prop where
  converted : ∃ locations path raw, Descriptor.Message.Named raw ∧
    Schema.Message.ofDescriptor locations (fullScope file.package scope) path raw = .ok message
  symbols : Symbol.ofMessage file.path scope message ⊆ table.symbols
  outlined : context.message scope message = .ok outline

private theorem SharedScope.nested {scope : Text} {message : Schema.Message}
    {outline : Message FieldType} (shared : SharedScope table file context scope message outline) :
    List.Forall₂ (SharedScope table file context outline.declaredName)
      message.messages outline.messages := by
  obtain ⟨locations, path, raw, named, converted⟩ := shared.converted
  have conversion := Schema.Message.ofDescriptor_eq_ok converted
  have outlines := Context.message_eq_ok shared.outlined
  have grown : fullScope file.package outline.declaredName = message.fullName := by
    rw [outlines.declaredName, fullScope_qualified _ _ (conversion.name ▸ named.own),
      conversion.fullName]
  refine Result.forall₂_imp_of_mem (fun nested member made _ nestedMade => ?_) outlines.messages
  obtain ⟨origin, originMember, originPath, origins⟩ := conversion.messages nested member
  refine ⟨⟨locations, originPath, origin,
    Descriptor.Message.named_of_mem named.below originMember, grown ▸ origins⟩, ?_, nestedMade⟩
  intro symbol symbolMember
  refine shared.symbols ?_
  rw [Symbol.ofMessage_eq, ← outlines.declaredName]
  exact List.mem_cons_of_mem _ (List.mem_append_left _
    (List.mem_flatMap.mpr ⟨nested, member, symbolMember⟩))

private theorem SharedScope.agree (distinct : table.Distinct) {scope : Text}
    {message : Schema.Message} {outline : Message FieldType}
    (shared : SharedScope table file context scope message outline) :
    Agree table file .message message.fullName outline.declaredName ∧
    List.Forall₂ (fun enum declared => Agree table file .enum enum.fullName declared.declaredName)
      message.enums outline.enums := by
  obtain ⟨locations, path, raw, named, converted⟩ := shared.converted
  have conversion := Schema.Message.ofDescriptor_eq_ok converted
  have outlines := Context.message_eq_ok shared.outlined
  have symbols := shared.symbols
  rw [Symbol.ofMessage_eq, ← outlines.declaredName] at symbols
  constructor
  · rw [outlines.declaredName]
    refine agree_of_mem distinct (outlines.declaredName ▸ symbols List.mem_cons_self) ?_
    exact conversion.fullName
  · rw [outlines.enums]
    refine agree_enums distinct (fun symbol member => symbols (List.mem_cons_of_mem _
      (List.mem_append_right _ member))) ?_
    rw [outlines.declaredName, fullScope_qualified _ _ (conversion.name ▸ named.own),
      ← conversion.fullName]
    exact conversion.enums

private theorem sharedScope_messages {raw : Descriptor.File}
    (converted : Schema.File.Converted raw file)
    (named : ∀ position message, raw.messageAt? position = some message → message.name ≠ [])
    (symbols : Symbol.ofFile file ⊆ table.symbols) {outline : Outline FieldType}
    (outlined : context.OutlinesFile file outline) :
    List.Forall₂ (SharedScope table file context []) file.messages outline.messages := by
  refine Result.forall₂_imp_of_mem (fun message member made _ messageMade => ?_) outlined.messages
  obtain ⟨origin, originMember, path, origins⟩ := converted.messages message member
  refine ⟨⟨raw.locations, path, origin, Descriptor.Message.named_of_mem named originMember,
    origins⟩, fun symbol symbolMember => symbols ?_, messageMade⟩
  rw [Symbol.ofFile, Symbol.ofMessages_eq_flatMap]
  exact List.mem_append_left _ (List.mem_flatMap.mpr ⟨message, member, symbolMember⟩)

end

/-- Every message and enum of a file is found in the symbol table under its full name, in that file
and with the name that its declaration has, which is the full name without the package. -/
theorem declaredName_agrees {raws : List Descriptor.File} {files : List Schema.File}
    {style : ImportStyle} {table : SymbolTable} {file : Schema.File} {options : Options}
    {emitted : MessageFile}
    (converted : raws.mapM Schema.File.ofDescriptor = .ok files)
    (named : ∀ raw ∈ raws, ∀ position message,
      raw.messageAt? position = some message → message.name ≠ [])
    (built : SymbolTable.ofFiles style files = .ok table) (member : file ∈ files)
    (made : MessageFile.ofSchema file table options = .ok emitted) :
    (∀ position message, file.messageAt? position = some message →
      ∃ declared, emitted.messageAt? position = some declared ∧
        Agree table file .message message.fullName declared.declaredName ∧
        List.Forall₂ (fun enum made => Agree table file .enum enum.fullName made.declaredName)
          message.enums declared.enums) ∧
    List.Forall₂ (fun enum made => Agree table file .enum enum.fullName made.declaredName)
      file.enums emitted.enums := by
  obtain ⟨raw, rawMember, fileConverted⟩ := Result.exists_of_mem_mapM converted member
  have conversion := Schema.File.ofDescriptor_eq_ok fileConverted
  obtain ⟨tableIs, distinct⟩ := SymbolTable.ofFiles_eq_ok built
  have symbols : Symbol.ofFile file ⊆ table.symbols := by
    intro symbol symbolMember
    rw [tableIs]
    exact List.mem_flatMap.mpr ⟨file, member, symbolMember⟩
  obtain ⟨outline, outlined, rfl⟩ := MessageFile.ofSchema_eq_ok made
  constructor
  · intro position message found
    have roots := sharedScope_messages conversion (named raw rawMember) symbols outlined
    obtain ⟨outlineHere, foundHere, scope, shared⟩ := nodeAt?_related
      (R := fun message made => ∃ scope, SharedScope table file _ scope message made)
      (fun _ _ ⟨_, shared⟩ => shared.nested.imp fun _ _ nested => ⟨_, nested⟩)
      (roots.imp fun _ _ shared => ⟨_, shared⟩) found
    refine ⟨_, Outline.messageAt?_mapType _ foundHere, ?_⟩
    rw [Message.declaredName_mapType, Message.enums_mapType]
    exact shared.agree distinct
  · change List.Forall₂ _ file.enums outline.enums
    rw [outlined.enums]
    exact agree_enums distinct (fun symbol symbolMember => symbols
      (List.mem_append_right _ symbolMember)) conversion.enums

/-- A descriptor with a message inside a message, a map entry beside it, and enums at both levels. -/
def catalogDescriptor : Descriptor.File where
  name := "shop/catalog.proto"
  package := "shop"
  messages := [{
    name := "Catalog"
    nested := [{ name := "ItemsEntry", mapEntry := true }, { name := "Item" }]
    enums := [{ name := "State" }] }]
  enums := [{ name := "Currency" }]

theorem declaredName_agrees_catalog :
    ∃ file table emitted, [catalogDescriptor].mapM Schema.File.ofDescriptor = .ok [file] ∧
      (∀ position message, catalogDescriptor.messageAt? position = some message →
        message.name ≠ []) ∧
      SymbolTable.ofFiles .relative [file] = .ok table ∧
      MessageFile.ofSchema file table {} = .ok emitted ∧
      (∃ message declared, file.messageAt? [0, 0] = some message ∧
        emitted.messageAt? [0, 0] = some declared ∧
        Agree table file .message message.fullName declared.declaredName) ∧
      List.Forall₂ (fun enum made => Agree table file .enum enum.fullName made.declaredName)
        file.enums emitted.enums := by
  have named : ∀ position message, catalogDescriptor.messageAt? position = some message →
      message.name ≠ [] := by
    intro position message found
    refine nodeAt?_invariant (P := fun message => message.name ≠ [] ∧
      ∀ nested ∈ message.nested, nested.name ≠ [] ∧ nested.nested = []) ?_ ?_ found |>.1
    · rintro node ⟨-, leaves⟩ child member
      obtain ⟨childNamed, leaf⟩ := leaves child member
      exact ⟨childNamed, by simp [leaf]⟩
    · decide
  have run : ∃ file, [catalogDescriptor].mapM Schema.File.ofDescriptor = .ok [file] ∧
      ∃ table, SymbolTable.ofFiles .relative [file] = .ok table ∧
      ∃ emitted, MessageFile.ofSchema file table {} = .ok emitted ∧
      ∃ message, file.messageAt? [0, 0] = some message := ⟨_, rfl, _, rfl, _, rfl, _, rfl⟩
  obtain ⟨file, converted, table, built, emitted, made, message, found⟩ := run
  have agrees := declaredName_agrees converted (by simpa using named) built (by simp) made
  obtain ⟨declared, foundDeclared, agree, -⟩ := agrees.1 [0, 0] message found
  exact ⟨file, table, emitted, converted, named, built, made,
    ⟨message, declared, found, foundDeclared, agree⟩, agrees.2⟩

end Declaration

end ProtoTypings
