import ProtoTypings.Proofs.Change
import ProtoTypings.Proofs.Mention
import ProtoTypings.Proofs.Reference
import ProtoTypings.Proofs.ScopeName

set_option autoImplicit false
set_option relaxedAutoImplicit false

/-!
Names that are looked up inside namespaces. The accessors of a message stand in the namespaces of
the messages around it, its object type in its own namespace as well. A name that one of these
declares does not reach the top level; which ones do can be told from the schema and the imports.
-/

namespace ProtoTypings

/-- The nodes from the root down to a position, as far as there are any. -/
def nodesAlong {α : Type} (children : α → List α) : List α → List Nat → List α
  | _, [] => []
  | roots, index :: rest =>
    match roots[index]? with
    | none => []
    | some node => node :: nodesAlong children (children node) rest

private theorem nodesAlong_cons {α : Type} {children : α → List α} {roots : List α} {index : Nat}
    {node : α} (found : roots[index]? = some node) (rest : List Nat) :
    nodesAlong children roots (index :: rest) =
      node :: nodesAlong children (children node) rest := by
  rw [nodesAlong, found]

private theorem nodesAlong_related {α β : Type} {childrenA : α → List α} {childrenB : β → List β}
    {R : α → β → Prop} (step : ∀ a b, R a b → List.Forall₂ R (childrenA a) (childrenB b))
    {rootsA : List α} {rootsB : List β} (initial : List.Forall₂ R rootsA rootsB)
    (position : List Nat) :
    List.Forall₂ R (nodesAlong childrenA rootsA position)
      (nodesAlong childrenB rootsB position) := by
  induction position generalizing rootsA rootsB with
  | nil => exact .nil
  | cons index rest ih =>
    cases found : rootsA[index]? with
    | none =>
      have absent : rootsB[index]? = none := by
        rw [List.getElem?_eq_none_iff] at found ⊢
        rwa [← initial.length_eq]
      simp only [nodesAlong, found, absent]
      exact .nil
    | some node =>
      obtain ⟨other, otherFound, related⟩ := related_at initial found
      rw [nodesAlong_cons found, nodesAlong_cons otherFound]
      exact .cons related (ih (step node other related))

namespace Scope

/-- The innermost scope that declares a name, of scopes given from the outside in. Without one the
name is looked up at the top level. -/
def captor? (scopes : List Scope) (name : Text) : Option Scope :=
  scopes.reverse.find? fun scope => scope.declared.contains name

private theorem captor?_eq_none_iff {scopes : List Scope} {name : Text} :
    captor? scopes name = none ↔ ∀ scope ∈ scopes, name ∉ scope.declared := by
  simp [captor?, List.find?_eq_none]

private theorem captor?_dropLast {scopes : List Scope} {name : Text}
    (free : captor? scopes name = none) : captor? scopes.dropLast name = none := by
  rw [captor?_eq_none_iff] at free ⊢
  intro scope member
  exact free scope (List.dropLast_subset scopes member)

end Scope

namespace Imports

/-- Imports whose names are looked up as a whole. -/
def Undotted (imports : Imports) : Prop := ∀ entry ∈ imports.entries, Text.dot ∉ entry.name

private theorem dot_notMem_freeName (imports : Imports) {preferred : Text}
    (undotted : Text.dot ∉ preferred) : Text.dot ∉ imports.freeName preferred := by
  rw [freeName]
  split
  · intro member
    rcases List.mem_append.mp member with inName | inNumber
    · exact undotted inName
    · rcases List.mem_cons.mp inNumber with same | inDigits
      · exact absurd same (by decide)
      · exact absurd (Text.isDigit_of_mem_ofNat inDigits) (by decide)
  · exact undotted

private theorem Undotted.add {imports : Imports} (undotted : imports.Undotted) {target : Resolution}
    (preferred : Text.dot ∉ target.importName) : (imports.add target).Undotted := by
  rcases add_cases imports target with ⟨same, -⟩ | ⟨-, pushed⟩
  · rwa [same]
  · rw [pushed]
    intro entry member
    rcases List.mem_append.mp member with earlier | last
    · exact undotted entry earlier
    · rw [List.mem_singleton.mp last]
      exact dot_notMem_freeName imports preferred

private theorem Undotted.addAll {imports : Imports} (undotted : imports.Undotted)
    {targets : List Resolution} (preferred : ∀ target ∈ targets, Text.dot ∉ target.importName) :
    (imports.addAll targets).Undotted := by
  induction targets generalizing imports with
  | nil => exact undotted
  | cons target rest ih =>
    have first := undotted.add (preferred target List.mem_cons_self)
    exact ih first fun other member => preferred other (List.mem_cons_of_mem target member)

end Imports

private theorem Path.dot_notMem_importAlias (path : Text) : Text.dot ∉ Path.importAlias path := by
  intro member
  rcases List.mem_append.mp member with inStem | inSuffix
  · obtain ⟨byte, -, plain⟩ := List.mem_map.mp inStem
    by_cases dot : byte = Text.dot
    · simp [dot, Text.dot, Text.underscore] at plain
    · split at plain
      · exact absurd plain (by decide)
      · exact dot plain
  · exact absurd inSuffix (by decide)

namespace Schema

def File.scopesAlong (file : File) (position : List Nat) : List Scope :=
  (nodesAlong Message.messages file.messages position).map Message.scope

def File.declaredNameAt (file : File) (position : List Nat) : Text :=
  ((nodesAlong Message.messages file.messages position).map (·.name)).foldl
    Identifier.qualified []

end Schema

/-- How a symbol is mentioned by a spelling: an enum by its interface. -/
def SymbolKind.mentionedAs : SymbolKind → Text → Text
  | .enum, spelling => spelling ++ "Map"
  | .message, spelling => spelling

/-- What references to a symbol are looked up by: where the symbol is declared by the front of its
own name, and elsewhere by the name of the import. -/
def Site.headOf (site : Site) (symbol : Symbol) : Text :=
  if symbol.file = site.source then firstSegment (symbol.kind.mentionedAs symbol.name)
  else ((site.imports.find? fun entry => decide
    (entry.path = Path.importPath site.source symbol.file site.style)).map Import.name).getD []

private theorem Site.firstSegment_mentionedAs {site : Site}
    (undotted : ∀ entry ∈ site.imports, Text.dot ∉ entry.name) {symbol : Symbol} {spelling : Text}
    (spelled : site.Spelled symbol spelling) :
    firstSegment (symbol.kind.mentionedAs spelling) = site.headOf symbol := by
  rw [Spelled] at spelled
  rw [headOf]
  split
  · rename_i own
    rw [if_pos own] at spelled
    rw [spelled]
  · rename_i foreign
    rw [if_neg foreign] at spelled
    obtain ⟨name, ⟨-, onlyPath⟩, rfl⟩ := spelled
    have found : site.imports.find? (fun entry => decide
        (entry.path = Path.importPath site.source symbol.file site.style)) =
        some ⟨name, Path.importPath site.source symbol.file site.style⟩ := by
      rw [← List.head?_filter, onlyPath, List.head?_cons]
    have plain : firstSegment name = name :=
      firstSegment_eq_self (undotted _ (List.mem_of_find?_eq_some found))
    rw [found]
    cases symbol.kind with
    | message => exact (firstSegment_append_dot name symbol.name).trans plain
    | enum =>
      rw [SymbolKind.mentionedAs, List.append_assoc, List.cons_append, firstSegment_append_dot]
      exact plain

private theorem ElementType.head?_eq_none {type : ElementType} {spell : Resolution → Text}
    (plain : type.reference? = none) : type.head? spell = none := by
  cases type <;> simp [reference?] at plain <;> rfl

private theorem ElementType.head?_elementType (kind : SymbolKind) (spell : Resolution → Text)
    (target : Resolution) :
    (kind.elementType target).head? spell =
      some (firstSegment (kind.mentionedAs (spell target))) := by
  cases kind <;> rfl

section

variable (site : Site) {spell : Resolution → Text} {P : Text → Prop}

private theorem ElementType.forall_head_iff {owner : Text} {field : Schema.Field}
    {type : ElementType} (typed : ofField site.table site.source owner field = .ok type)
    (heads : ∀ target, type.reference? = some target →
      firstSegment (target.kind.mentionedAs (spell target)) = site.headOf target.toSymbol) :
    (∀ head ∈ type.head? spell, P head) ↔
      ∀ name ∈ field.ownTypeName, ∀ symbol ∈ site.table.find? name, P (site.headOf symbol) := by
  rcases ofField_cases typed with ⟨scalar, kind, rfl⟩ | ⟨kind, target, refers, resolved, same, rfl⟩
  · have plain : (ofScalar scalar field.jsType).head? spell = none :=
      head?_eq_none (reference?_ofScalar scalar field.jsType)
    simp [plain, Schema.Field.ownTypeName, kind, Schema.FieldKind.symbolKind?]
  · have found := (SymbolTable.resolve_eq_ok resolved).1
    have head := heads target (SymbolKind.reference?_elementType kind target)
    rw [same] at head
    simp [head?_elementType, Schema.Field.ownTypeName, refers, found, head]

private theorem FieldType.forall_head_iff {field : Schema.Field} {type : FieldType}
    (typed : ofField site.table site.source field = .ok type)
    (heads : ∀ target, type.reference? = some target →
      firstSegment (target.kind.mentionedAs (spell target)) = site.headOf target.toSymbol) :
    (∀ head ∈ type.head? spell, P head) ↔
      ∀ name ∈ field.typeNames, ∀ symbol ∈ site.table.find? name, P (site.headOf symbol) := by
  rcases ofField_cases typed with ⟨notMap, element, elementTyped, rfl⟩ |
    ⟨isMap, key, value, keyType, valueType, entry, -, -, valueTyped, rfl⟩
  · have reference : (if field.isRepeated then FieldType.list element
        else .single element).reference? = element.reference? := by split <;> rfl
    have head : (if field.isRepeated then FieldType.list element
        else .single element).head? spell = element.head? spell := by split <;> rfl
    rw [reference] at heads
    rw [Schema.Field.typeNames, if_neg notMap, head]
    exact ElementType.forall_head_iff site elementTyped heads
  · rw [Schema.Field.typeNames, if_pos isMap, entry]
    exact ElementType.forall_head_iff site valueTyped heads

end

namespace Declaration

section

variable {α β : Type}

def Outline.scopesAlong (outline : Outline α) (position : List Nat) : List Scope :=
  (nodesAlong Message.messages outline.messages position).map Message.scope

def Message.accessorLines (message : Message MarkedType) : List MarkedText :=
  message.fields.flatMap (Layout.markedAccessors message.declaredName)

def Message.objectLines (message : Message MarkedType) : List MarkedText :=
  message.fields.map Layout.markedObjectMember

private theorem Message.forall_mentions_iff {message : Message MarkedType} {P Q : Text → Prop} :
    ((∀ name ∈ message.accessorLines.flatMap MarkedText.mentions, P name) ∧
      ∀ name ∈ message.objectLines.flatMap MarkedText.mentions, Q name) ↔
    ∀ field ∈ message.fields,
      (∀ name ∈ (Layout.markedAccessors message.declaredName field).flatMap MarkedText.mentions,
        P name) ∧
      ∀ name ∈ MarkedText.mentions (Layout.markedObjectMember field), Q name := by
  rw [accessorLines, objectLines, List.flatMap_assoc, List.flatMap_map, List.forall_mem_flatMap,
    List.forall_mem_flatMap, ← forall₂_and]

/-- Every name in the accessors of a message reaches the top level from the namespaces around it,
and every name in its object type does so from its own namespace. -/
def Outline.CaptureFree (outline : Outline MarkedType) : Prop :=
  ∀ position message, outline.messageAt? position = some message →
    (∀ name ∈ message.accessorLines.flatMap MarkedText.mentions,
      Scope.captor? (outline.scopesAlong position).dropLast (firstSegment name) = none) ∧
    ∀ name ∈ message.objectLines.flatMap MarkedText.mentions,
      Scope.captor? (outline.scopesAlong position) (firstSegment name) = none

/-- Marked declarations of which the given ones are the text, message by message. -/
def Outline.Marks (marked : Outline MarkedType) (outline : Outline TypeText) : Prop :=
  ∀ position,
    (marked.messageAt? position).map (fun message =>
      (message.accessorLines.map MarkedText.text, message.objectLines.map MarkedText.text)) =
    (outline.messageAt? position).map fun message =>
      (message.fields.flatMap (Layout.accessors message.declaredName),
        message.fields.map Layout.objectMember)

private theorem Message.text_accessorLines (message : Message MarkedType) :
    message.accessorLines.map MarkedText.text =
      (message.mapType MarkedType.text).fields.flatMap
        (Layout.accessors (message.mapType MarkedType.text).declaredName) := by
  rw [accessorLines, List.map_flatMap, fields_mapType, List.flatMap_map, declaredName_mapType]
  apply List.flatMap_congr
  intro field _
  exact Layout.text_markedAccessors message.declaredName field

private theorem Message.text_objectLines (message : Message MarkedType) :
    message.objectLines.map MarkedText.text =
      (message.mapType MarkedType.text).fields.map Layout.objectMember := by
  rw [objectLines, List.map_map, fields_mapType, List.map_map]
  apply List.map_congr_left
  intro field _
  exact Layout.text_markedObjectMember field

private theorem Outline.marks_mapType (marked : Outline MarkedType) :
    marked.Marks (marked.mapType MarkedType.text) := by
  intro position
  rw [Outline.messageAt?_mapType_eq_map, Option.map_map]
  apply Option.map_congr
  intro message _
  exact Prod.ext message.text_accessorLines message.text_objectLines

private theorem Context.declaredName_of_nodeAt? {context : Context} {scope : Text}
    {messages : List Schema.Message} {outlines : List (Message FieldType)}
    (outlined : List.Forall₂ (fun message made => context.message scope message = .ok made)
      messages outlines) {position : List Nat} {made : Message FieldType}
    (found : nodeAt? Message.messages outlines position = some made) :
    made.declaredName =
      ((nodesAlong Schema.Message.messages messages position).map (·.name)).foldl
        Identifier.qualified scope := by
  -- Going down a level, the scope becomes the declared name of the message above.
  induction position generalizing scope messages outlines with
  | nil => simp [nodeAt?] at found
  | cons index rest ih =>
    cases topFound : outlines[index]? with
    | none => cases rest <;> simp [nodeAt?, topFound] at found
    | some top =>
      obtain ⟨message, messageFound, topMade⟩ := related_at outlined.flip topFound
      have inner := message_eq_ok topMade
      rw [nodesAlong_cons messageFound, List.map_cons, List.foldl_cons, ← inner.declaredName]
      cases rest with
      | nil =>
        obtain rfl : top = made := Option.some.inj (topFound.symm.trans found)
        rfl
      | cons next rest =>
        simp only [nodeAt?, topFound] at found
        exact ih inner.messages found

end

/-- The declarations that an outline leads to with the names in them marked. -/
def Outline.marked (file : Schema.File) (outline : Outline FieldType) : Outline MarkedType :=
  outline.mapType (FieldType.marked (outline.imports (topLevelNames file)).spell)

def markedDeclarations (file : Schema.File) (table : SymbolTable) (options : Options) :
    Except Fault (Outline MarkedType) :=
  ((Context.ofFile file table options).outline file).map (Outline.marked file)

/-- What the names in the declarations of a file are looked up by, told by the schema: the front of
a message's own name in the accessors of its fields, or the runtime for a map, and what the symbol
is looked up by wherever a type refers to one. All of it reaches the top level. -/
def Uncaptured (file : Schema.File) (site : Site) : Prop :=
  ∀ position message, file.messageAt? position = some message → ∀ field ∈ message.fields,
    Scope.captor? (file.scopesAlong position).dropLast
      (if field.kind = .map then runtimeName
        else firstSegment (file.declaredNameAt position)) = none ∧
    ∀ name ∈ field.typeNames, ∀ symbol ∈ site.table.find? name,
      Scope.captor? (file.scopesAlong position) (site.headOf symbol) = none

section

variable {file : Schema.File} {table : SymbolTable} {options : Options}
  {outline : Outline FieldType}

private theorem Outline.scopesAlong_marked
    (outlined : (Context.ofFile file table options).OutlinesFile file outline)
    (position : List Nat) :
    (outline.marked file).scopesAlong position = file.scopesAlong position := by
  apply Eq.symm
  apply Result.map_eq_map_iff.mpr
  have related := nodesAlong_related (fun _ _ declares => Context.Declares.messages declares)
    (outlined.declares (f := FieldType.marked (outline.imports (topLevelNames file)).spell))
    position
  refine related.imp ?_
  intro message declared declares
  exact declares.scope.symm

private theorem Outline.undotted_imports
    (made : (Context.ofFile file table options).outline file = .ok outline) (taken : List Text) :
    (outline.imports taken).Undotted := by
  have typed := Context.types_outline made
  have start : (Imports.fixed ⟨true, taken, []⟩ runtimeName runtimeModule).Undotted := by
    intro entry member
    obtain rfl := List.mem_singleton.mp member
    decide
  apply start.addAll
  intro target member
  obtain ⟨type, typeMember, refers⟩ := List.mem_filterMap.mp member
  obtain ⟨field, -, fieldTyped⟩ := Result.exists_of_mem_mapM typed typeMember
  obtain ⟨name, -, resolved⟩ := FieldType.reference_eq_some fieldTyped refers
  rw [SymbolTable.importName_of_resolve resolved]
  exact Path.dot_notMem_importAlias target.file

private theorem Outline.forall_head_iff
    (made : (Context.ofFile file table options).outline file = .ok outline)
    {field : Schema.Field} {type : FieldType}
    (typed : FieldType.ofField table file.path field = .ok type) (member : type ∈ outline.types)
    (P : Text → Prop) :
    (∀ head ∈ type.head? (outline.imports (topLevelNames file)).spell, P head) ↔
      ∀ name ∈ field.typeNames, ∀ symbol ∈ table.find? name,
        P (Site.headOf ⟨table, table.importStyle, file.path,
          (outline.imports (topLevelNames file)).entries⟩ symbol) := by
  apply FieldType.forall_head_iff ⟨table, table.importStyle, file.path, _⟩ typed
  intro target refers
  obtain ⟨typeName, resolved⟩ := FieldType.resolved_reference typed refers
  apply Site.firstSegment_mentionedAs
  · exact Outline.undotted_imports made (topLevelNames file)
  · exact Outline.spelled_reference member refers resolved

private theorem Outline.mentions_iff
    (made : (Context.ofFile file table options).outline file = .ok outline) {position : List Nat}
    {here : Message FieldType} (found : outline.messageAt? position = some here)
    {scope : Text} {message : Schema.Message}
    (outlines : (Context.ofFile file table options).Outlines scope message here)
    (scopes : List Scope) :
    let declared := here.mapType (FieldType.marked (outline.imports (topLevelNames file)).spell)
    ((∀ name ∈ declared.accessorLines.flatMap MarkedText.mentions,
        Scope.captor? scopes.dropLast (firstSegment name) = none) ∧
      ∀ name ∈ declared.objectLines.flatMap MarkedText.mentions,
        Scope.captor? scopes (firstSegment name) = none) ↔
    ∀ field ∈ message.fields,
      Scope.captor? scopes.dropLast (if field.kind = .map then runtimeName
        else firstSegment (file.declaredNameAt position)) = none ∧
      ∀ name ∈ field.typeNames, ∀ symbol ∈ table.find? name,
        Scope.captor? scopes (Site.headOf ⟨table, table.importStyle, file.path,
          (outline.imports (topLevelNames file)).entries⟩ symbol) = none := by
  intro declared
  have owner : declared.declaredName = file.declaredNameAt position :=
    (Message.declaredName_mapType _ here).trans
      (Context.declaredName_of_nodeAt? (Context.outline_eq_ok made).messages found)
  have contained : ∀ field ∈ here.fields, field.type ∈ outline.types := by
    intro field member
    apply Outline.types_messageAt? found
    rw [Message.types_eq]
    exact List.mem_append_left _ (List.mem_map_of_mem member)
  rw [Message.forall_mentions_iff, Message.fields_mapType, List.forall_mem_map]
  apply Iff.symm
  apply Result.forall_mem_iff_of_forall₂ outlines.fields
  intro field _ fieldMade member fieldOutlined
  have heads (P : Text → Prop) := Outline.forall_head_iff made
    (Context.field_eq_ok fieldOutlined) (contained fieldMade member) P
  rw [forall_mentions_accessors fieldOutlined _ _ fun name =>
      Scope.captor? scopes.dropLast name = none,
    forall_mentions_objectMember fieldOutlined _ fun name => Scope.captor? scopes name = none,
    heads, heads, owner]
  -- References stand in the accessors and in the object type, and the latter lies deeper.
  constructor
  · rintro ⟨own, free⟩
    refine ⟨⟨own, ?_⟩, free⟩
    intro name named symbol symbolFound
    exact Scope.captor?_dropLast (free name named symbol symbolFound)
  · rintro ⟨⟨own, -⟩, free⟩
    exact ⟨own, free⟩

end

/-- Where a name in the declarations of a file is captured. Import names keep clear of the names at
the top level only, and local names of nothing, so a nested declaration can come between a name and
what it means. Which ones do can be told from the schema and the names of the imports. -/
theorem captureFree_iff {file : Schema.File} {table : SymbolTable} {options : Options}
    {emitted : MessageFile} (made : MessageFile.ofSchema file table options = .ok emitted) :
    ∃ marked, markedDeclarations file table options = .ok marked ∧
      marked.Marks emitted.toOutline ∧
      (marked.CaptureFree ↔
        Uncaptured file ⟨table, table.importStyle, file.path, emitted.imports⟩) := by
  rw [MessageFile.ofSchema_eq_map] at made
  obtain ⟨outline, outlineMade, rfl⟩ := Result.map_eq_ok.mp made
  have outlined := Context.outline_eq_ok outlineMade
  refine ⟨outline.marked file, ?_, ?_, ?_⟩
  · rw [markedDeclarations, outlineMade]
    rfl
  · have erased := Outline.marks_mapType (outline.marked file)
    have text : MarkedType.text ∘ FieldType.marked (outline.imports (topLevelNames file)).spell =
        FieldType.spell (outline.imports (topLevelNames file)).spell :=
      funext (FieldType.text_marked _)
    rwa [Outline.marked, Outline.mapType_mapType, text] at erased
  · apply forall_congr'
    intro position
    apply Iff.symm
    apply nodeAt?_forall_iff (fun _ _ declares => Context.Declares.messages declares)
      outlined.declares
    intro message declared _ foundMessage foundDeclared
    obtain ⟨here, foundHere, scope, outlines⟩ := outlined.messageAt? foundMessage
    have same := Option.some.inj
      ((Outline.messageAt?_mapType _ foundHere).symm.trans foundDeclared)
    subst same
    rw [Outline.scopesAlong_marked outlined]
    exact (Outline.mentions_iff outlineMade foundHere outlines (file.scopesAlong position)).symm

/-- Both messages of the first file, with a map, a list of nested messages and an enum. -/
theorem captureFree_iff_orderFiles :
    ∃ table file emitted marked, SymbolTable.ofFiles .fromRoot orderFiles = .ok table ∧
      file ∈ orderFiles ∧ MessageFile.ofSchema file table {} = .ok emitted ∧
      markedDeclarations file table {} = .ok marked ∧ marked.CaptureFree := by
  have built : SymbolTable.ofFiles .fromRoot orderFiles =
    .ok ⟨Symbol.ofFiles orderFiles, .fromRoot⟩ := rfl
  have declared : ∃ emitted, MessageFile.ofSchema orderFiles[0]
      ⟨Symbol.ofFiles orderFiles, .fromRoot⟩ {} = .ok emitted ∧ emitted.imports =
        [⟨"jspb", "google-protobuf"⟩, ⟨"stock_item_pb", "../stock/item_pb"⟩] :=
    ⟨_, rfl, by decide +kernel⟩
  obtain ⟨emitted, made, imports⟩ := declared
  obtain ⟨marked, markedMade, -, exactly⟩ := captureFree_iff made
  refine ⟨_, _, emitted, marked, built, List.getElem_mem _, made, markedMade, exactly.mpr ?_⟩
  rw [imports]
  intro position message found
  match position, found with
  | [0], found =>
    obtain rfl := Option.some.inj found
    decide +kernel
  | [0, 0], found =>
    obtain rfl := Option.some.inj found
    decide +kernel
  | [], found => cases found
  | [n + 1], found => cases found
  | (n + 1) :: _ :: _, found => cases found
  | [0, n + 1], found => cases found
  | 0 :: (n + 1) :: _ :: _, found => cases found
  | [0, 0, _], found => cases found
  | 0 :: 0 :: _ :: _ :: _, found => cases found

/-- A message of another file in a field, beside a nested message named as the import is. -/
def captureFiles : List Schema.File :=
  [{ path := "m.proto"
     messages := [{
       name := "M"
       fullName := ".M"
       fields := [{ name := "f", kind := .message, typeName := ".foo.F" }]
       messages := [{ name := "foo_pb", fullName := ".M.foo_pb" }] }] },
   { path := "foo.proto"
     package := "foo"
     messages := [{ name := "F", fullName := ".foo.F" }] }]

theorem not_captureFree_captureFiles :
    ∃ table file emitted marked, SymbolTable.ofFiles .fromRoot captureFiles = .ok table ∧
      file ∈ captureFiles ∧ MessageFile.ofSchema file table {} = .ok emitted ∧
      markedDeclarations file table {} = .ok marked ∧ ¬marked.CaptureFree := by
  refine ⟨_, captureFiles[0], _, _, rfl, List.getElem_mem _, rfl, rfl, ?_⟩
  intro free
  have objectType := (free [0] _ rfl).2 "foo_pb.F.AsObject" (by decide +kernel)
  exact absurd objectType (by decide +kernel)

end Declaration

end ProtoTypings
