import Mathlib.Data.List.Induction
import ProtoTypings.Proofs.OptionFrame

set_option autoImplicit false
set_option relaxedAutoImplicit false

/-!
The names under which service declarations import modules. No reserved name can look like one of
them, so modules that prefer one name are numbered in order and nothing else has an influence: the
names can be read off the schema. The names of a service's interface, server and client never meet
them; those of its methods' interfaces can.
-/

namespace ProtoTypings

namespace Keyed

variable {α : Type}

/-- The members whose key no earlier member has. -/
def firsts (key : α → Text) : List α → List α
  | [] => []
  | x :: rest => x :: (firsts key rest).filter fun y => key y ≠ key x

private theorem filter_firsts_cons (key : α → Text) (x : α) (rest : List α) (known : List Text) :
    ((firsts key (x :: rest)).filter fun y => key y ∉ known) =
      if key x ∈ known then (firsts key rest).filter fun y => key y ∉ known
      else x :: (firsts key rest).filter fun y => key y ∉ known ++ [key x] := by
  rw [firsts]
  split
  · rename_i old
    rw [List.filter_cons_of_neg (by simpa using old), List.filter_filter]
    apply List.filter_congr
    intro y _
    by_cases same : key y = key x
    · simp [same, old]
    · simp [same]
  · rename_i new
    rw [List.filter_cons_of_pos (by simpa using new), List.filter_filter]
    congr 1
    apply List.filter_congr
    intro y _
    simp [not_or]

end Keyed

namespace Imports

/-- The name of an import if `n` imports that prefer the same one come before it. -/
def label (name : Text) (n : Nat) : Text := if n = 0 then name else numbered name n

/-- The names of imports that prefer the given ones, if these can only get in each other's way. -/
def labels (names : List Text) : List Text :=
  names.mapIdx fun index name => label name ((names.take index).count name)

private theorem labels_concat (names : List Text) (name : Text) :
    labels (names ++ [name]) = labels names ++ [label name (names.count name)] := by
  have earlier : names.mapIdx (fun index other =>
      label other (((names ++ [name]).take index).count other)) = labels names := by
    rw [labels, List.mapIdx_eq_mapIdx_iff]
    intro index bound
    rw [List.take_append_of_le_length (Nat.le_of_lt bound)]
  rw [labels, List.mapIdx_concat, earlier, List.take_left]

private theorem mem_labels {names : List Text} {chosen : Text} :
    chosen ∈ labels names ↔ ∃ name, ∃ n < names.count name, chosen = label name n := by
  induction names using List.reverseRecOn with
  | nil => simp [labels]
  | append_singleton names last ih =>
    rw [labels_concat, List.mem_append, List.mem_singleton, ih]
    constructor
    · rintro (⟨name, n, bound, rfl⟩ | rfl)
      · refine ⟨name, n, ?_, rfl⟩
        rw [List.count_append]
        omega
      · refine ⟨last, names.count last, ?_, rfl⟩
        rw [List.count_append, List.count_singleton_self]
        omega
    · rintro ⟨name, n, bound, rfl⟩
      rw [List.count_append] at bound
      by_cases same : last = name
      · subst same
        rw [List.count_singleton_self] at bound
        rcases Nat.lt_succ_iff_lt_or_eq.mp bound with before | rfl
        · exact Or.inl ⟨last, n, before, rfl⟩
        · exact Or.inr rfl
      · have absent : [last].count name = 0 := by
          apply List.count_eq_zero_of_not_mem
          intro member
          exact same (List.mem_singleton.mp member).symm
        exact Or.inl ⟨name, n, by omega, rfl⟩

private theorem numbered_inj {name name' : Text} {n n' : Nat}
    (same : numbered name n = numbered name' n') : name = name' ∧ n = n' := by
  -- The longer of the two names would have an underscore among the digits of the other.
  have nothing {rest : Text} {k l : Nat} (overlap : Text.underscore :: Text.ofNat k =
      rest ++ Text.underscore :: Text.ofNat l) : rest = [] := by
    cases rest with
    | nil => rfl
    | cons byte rest =>
      have digits : Text.ofNat k = rest ++ Text.underscore :: Text.ofNat l :=
        (List.cons.inj overlap).2
      have member : Text.underscore ∈ Text.ofNat k := by
        rw [digits]
        exact List.mem_append_right rest List.mem_cons_self
      exact absurd (Text.isDigit_of_mem_ofNat member) (by decide)
  have names : name = name' := by
    rcases List.append_eq_append_iff.mp same with ⟨rest, longer, overlap⟩ | ⟨rest, longer, overlap⟩
    · rw [longer, nothing overlap, List.append_nil]
    · rw [longer, nothing overlap, List.append_nil]
  subst names
  exact ⟨rfl, numbered_injective name same⟩

private theorem getLast?_numbered (name : Text) (n : Nat) :
    ∃ byte, (numbered name n).getLast? = some byte ∧ Ascii.isDigit byte = true := by
  have nonempty := Text.ofNat_ne_nil n
  refine ⟨(Text.ofNat n).getLast nonempty, ?_,
    Text.isDigit_of_mem_ofNat (List.getLast_mem nonempty)⟩
  rw [numbered, List.getLast?_append, List.getLast?_cons, List.getLast?_eq_some_getLast nonempty]
  rfl

/-- The preferred names of imports, which end as the names of message modules do. -/
def IsPreferred (name : Text) : Prop := Text.ofString "_pb" <:+ name

private theorem IsPreferred.getLast? {name : Text} (preferred : IsPreferred name) :
    name.getLast? = some 98 := by
  obtain ⟨front, rfl⟩ := preferred
  rw [List.getLast?_append]
  rfl

private theorem IsPreferred.ne_numbered {name : Text} (preferred : IsPreferred name) (other : Text)
    (n : Nat) : name ≠ numbered other n := by
  rintro rfl
  obtain ⟨byte, last, digit⟩ := getLast?_numbered other n
  obtain rfl : (98 : UInt8) = byte := Option.some.inj (preferred.getLast?.symm.trans last)
  exact absurd digit (by decide)

private theorem label_inj {name name' : Text} (preferred : IsPreferred name)
    (preferred' : IsPreferred name') {n n' : Nat} (same : label name n = label name' n') :
    name = name' ∧ n = n' := by
  by_cases zero : n = 0 <;> by_cases zero' : n' = 0
  · rw [label, label, if_pos zero, if_pos zero'] at same
    exact ⟨same, zero.trans zero'.symm⟩
  · rw [label, label, if_pos zero, if_neg zero'] at same
    exact absurd same (preferred.ne_numbered name' n')
  · rw [label, label, if_neg zero, if_pos zero'] at same
    exact absurd same.symm (preferred'.ne_numbered name n)
  · rw [label, label, if_neg zero, if_neg zero'] at same
    exact numbered_inj same

private theorem getLast?_label {name : Text} (preferred : IsPreferred name) (n : Nat) :
    ∃ byte, (label name n).getLast? = some byte ∧ (byte = 98 ∨ Ascii.isDigit byte = true) := by
  by_cases zero : n = 0
  · rw [label, if_pos zero]
    exact ⟨98, preferred.getLast?, Or.inl rfl⟩
  · rw [label, if_neg zero]
    obtain ⟨byte, last, digit⟩ := getLast?_numbered name n
    exact ⟨byte, last, Or.inr digit⟩

private theorem freeName_eq_label {imports : Imports} {preferred : Text} {count : Nat}
    (taken : ∀ n, label preferred n ∈ imports.used ↔ n < count) :
    imports.freeName preferred = label preferred count := by
  have first : preferred ∈ imports.used ↔ 0 < count := taken 0
  have further (n : Nat) (positive : 1 ≤ n) :
      numbered preferred n ∈ imports.used ↔ n < count := by
    have labelled := taken n
    rwa [label, if_neg (by omega)] at labelled
  by_cases zero : count = 0
  · have free : preferred ∉ imports.used := by
      rw [first]
      omega
    rw [freeName, if_neg (by simpa using free), label, if_pos zero]
  · have used : preferred ∈ imports.used := first.mpr (by omega)
    obtain ⟨n, range, free⟩ := exists_free_number used
    have least : freeNumber imports.used preferred = count := by
      have found : (List.range' 1 imports.used.length).find?
          (fun n => !imports.used.contains (numbered preferred n)) = some count := by
        rw [List.find?_range'_eq_some]
        have enough : count ≤ n := by
          by_contra more
          have positive := (List.mem_range'_1.mp range).1
          exact free ((further n positive).mpr (by omega))
        have bounds := List.mem_range'_1.mp range
        refine ⟨?_, List.mem_range'_1.mpr (by omega), ?_⟩
        · have unused : numbered preferred count ∉ imports.used := by
            rw [further count (by omega)]
            omega
          simpa using unused
        · intro earlier positive before
          have usedEarlier := (further earlier positive).mpr before
          simpa using usedEarlier
      rw [freeNumber, found]
      rfl
    rw [freeName, if_pos (by simpa using used), least, label, if_neg zero]

/-- Imports of which the first one has a fixed name and the others have the names that the preferred
ones lead to. The names that are used besides cannot be among these. -/
structure Labelled (reserved : List Text) (fixed : Text) (names : List Text) (imports : Imports) :
    Prop where
  scope : imports.ownInScope = false
  preferred : ∀ name ∈ names, IsPreferred name
  apart : ∀ name, IsPreferred name → ∀ n, label name n ∉ reserved
  used : ∀ name, name ∈ imports.used ↔ name ∈ reserved ∨ name ∈ labels names
  entries : imports.entries.map Import.name = fixed :: labels names

section

variable {reserved names : List Text} {fixed : Text} {imports : Imports}

private theorem Labelled.freeName (labelled : Labelled reserved fixed names imports) {name : Text}
    (preferred : IsPreferred name) : imports.freeName name = label name (names.count name) := by
  apply freeName_eq_label
  intro n
  rw [labelled.used, or_iff_right (labelled.apart name preferred n), mem_labels]
  constructor
  · rintro ⟨other, k, bound, same⟩
    have member : other ∈ names := List.count_pos_iff.mp (by omega)
    obtain ⟨rfl, rfl⟩ := label_inj preferred (labelled.preferred other member) same
    exact bound
  · intro bound
    exact ⟨name, n, bound, rfl⟩

private theorem Labelled.push (labelled : Labelled reserved fixed names imports) {name : Text}
    (preferred : IsPreferred name) (path : Text) :
    Labelled reserved fixed (names ++ [name]) (imports.push (imports.freeName name) path) := by
  have chosen := labelled.freeName preferred
  refine ⟨labelled.scope, ?_, labelled.apart, ?_, ?_⟩
  · intro other member
    rcases List.mem_append.mp member with earlier | last
    · exact labelled.preferred other earlier
    · rwa [List.mem_singleton.mp last]
  · intro other
    change other ∈ imports.freeName name :: imports.used ↔ _
    rw [List.mem_cons, labelled.used, labels_concat, List.mem_append, List.mem_singleton, chosen]
    tauto
  · change (imports.entries ++ [(⟨imports.freeName name, path⟩ : Import)]).map Import.name = _
    rw [List.map_append, labelled.entries, labels_concat, ← chosen]
    rfl

private theorem Labelled.addAll (labelled : Labelled reserved fixed names imports)
    (pathOf : Text → Text)
    {targets : List Resolution} (paths : ∀ target ∈ targets, target.importPath = pathOf target.file)
    (aliases : ∀ target ∈ targets, target.importName = Path.importAlias target.file) :
    Labelled reserved fixed
      (names ++ ((Keyed.firsts pathOf (targets.map (·.file))).filter fun file =>
        pathOf file ∉ imports.entries.map Import.path).map Path.importAlias)
      (imports.addAll targets) := by
  induction targets generalizing imports names with
  | nil => simpa [Keyed.firsts, Imports.addAll] using labelled
  | cons target rest ih =>
    have path := paths target List.mem_cons_self
    have name := aliases target List.mem_cons_self
    have pathsRest := fun other member => paths other (List.mem_cons_of_mem target member)
    have aliasesRest := fun other member => aliases other (List.mem_cons_of_mem target member)
    rw [List.map_cons, Keyed.filter_firsts_cons]
    change Labelled _ _ _ ((imports.add target).addAll rest)
    rcases add_cases imports target with ⟨same, known⟩ | ⟨absent, pushed⟩
    · have imported : pathOf target.file ∈ imports.entries.map Import.path := by
        rcases known with scope | ⟨entry, found⟩
        · simp [inScope, labelled.scope] at scope
        · rw [← path]
          by_contra missing
          rw [Imports.find?, Keyed.find?_eq_none_iff.mpr missing] at found
          cases found
      rw [if_pos imported, same]
      exact ih labelled pathsRest aliasesRest
    · have new : pathOf target.file ∉ imports.entries.map Import.path := by
        rw [← path]
        exact Keyed.find?_eq_none_iff.mp absent
      have preferred : IsPreferred target.importName := by
        rw [name]
        exact List.suffix_append _ _
      have kept := ih (labelled.push preferred target.importPath) pathsRest aliasesRest
      rw [if_neg new, pushed, List.map_cons, ← name]
      simpa [Imports.push, path] using kept

end

end Imports

namespace Schema

def File.methodTypeNames (file : File) : List Text :=
  file.services.flatMap fun service => service.methods.flatMap Method.typeNames

/-- The schema files that declare the types of a file's methods, in order of reference; of those
with one import path the first. -/
def File.methodModules (table : SymbolTable) (file : File) : List Text :=
  Keyed.firsts (fun path => Path.importPath file.path path table.importStyle)
    (file.methodTypeNames.filterMap fun name => (table.find? name).map Symbol.file)

end Schema

namespace Declaration

def interfaceName (service method : Text) : Text := "I" ++ service ++ "Service_I" ++ method

/-- The names that the declarations of a service take at the top level, with those of the interfaces
of its methods. -/
def Service.topLevelNames (service : Service Method) : List Text :=
  serviceNames service.name ++
    service.methods.map fun method => interfaceName service.name method.name

private theorem getLast?_of_mem_serviceNames {service name : Text}
    (member : name ∈ serviceNames service) :
    ∃ byte, name.getLast? = some byte ∧ (byte = 101 ∨ byte = 114 ∨ byte = 116) := by
  have last (front back : Text) (byte : UInt8) (ending : back.getLast? = some byte) :
      (front ++ back).getLast? = some byte := by
    rw [List.getLast?_append, ending]
    rfl
  simp only [serviceNames, List.mem_cons, List.not_mem_nil, or_false] at member
  rcases member with rfl | rfl | rfl | rfl | rfl
  · exact ⟨101, last _ "Service" 101 rfl, by decide⟩
  · exact ⟨101, last _ "Service" 101 rfl, by decide⟩
  · exact ⟨114, last _ "Server" 114 rfl, by decide⟩
  · exact ⟨116, last _ "Client" 116 rfl, by decide⟩
  · exact ⟨116, last _ "Client" 116 rfl, by decide⟩

private theorem label_notMem_serviceNames {name : Text} (preferred : Imports.IsPreferred name)
    (n : Nat) (service : Text) : Imports.label name n ∉ serviceNames service := by
  intro member
  obtain ⟨byte, last, ending⟩ := Imports.getLast?_label preferred n
  obtain ⟨byte', last', reserved⟩ := getLast?_of_mem_serviceNames member
  obtain rfl : byte = byte' := Option.some.inj (last.symm.trans last')
  rcases reserved with rfl | rfl | rfl <;> exact absurd ending (by decide)

private theorem label_ne_grpcName {name : Text} (preferred : Imports.IsPreferred name) (n : Nat) :
    Imports.label name n ≠ grpcName := by
  intro same
  obtain ⟨byte, last, ending⟩ := Imports.getLast?_label preferred n
  rw [same] at last
  obtain rfl : (99 : UInt8) = byte := Option.some.inj last
  exact absurd ending (by decide)

private theorem grpcName_notMem_serviceNames (service : Text) :
    grpcName ∉ serviceNames service := by
  intro member
  obtain ⟨byte, last, reserved⟩ := getLast?_of_mem_serviceNames member
  obtain rfl : (99 : UInt8) = byte := Option.some.inj last
  exact absurd reserved (by decide)

private theorem grpcName_ne_interfaceName (service method : Text) :
    grpcName ≠ interfaceName service method := by
  intro same
  have heads := congrArg List.head? same
  exact absurd heads (show some (103 : UInt8) ≠ some 73 by decide)

section

variable {file : Schema.File} {table : SymbolTable} {options : Options}
  {services : List (Service Signature)}

theorem references_of_signatures
    (signed : List.Forall₂ (fun service signed =>
      Service.signatures table file.path options service = .ok signed) file.services services) :
    List.Forall₂ (fun name target => table.resolve name file.path = .ok target)
      file.methodTypeNames (services.flatMap Service.references) := by
  apply List.rel_flatMap signed
  intro service signedService made
  apply List.rel_flatMap (Service.signatures_eq_ok made)
  intro method signature signatureMade
  obtain ⟨-, request, response⟩ := Signature.ofSchema_eq_ok signatureMade
  exact .cons (SymbolTable.resolveMessage_eq_ok request).1
    (.cons (SymbolTable.resolveMessage_eq_ok response).1 .nil)

private theorem files_of_references {names : List Text} {targets : List Resolution} {source : Text}
    (resolved : List.Forall₂ (fun name target => table.resolve name source = .ok target)
      names targets) :
    targets.map (·.file) = names.filterMap fun name => (table.find? name).map Symbol.file := by
  induction resolved with
  | nil => rfl
  | cons first _ ih =>
    have found := (SymbolTable.resolve_eq_ok first).1
    rw [List.map_cons, List.filterMap_cons, found, ih]
    rfl

/-- The imports of services are the runtime and, numbered where they prefer the same name, the
modules of the types of their methods. -/
private theorem labelled_serviceImports (js : Bool)
    (signed : List.Forall₂ (fun service signed =>
      Service.signatures table file.path options service = .ok signed) file.services services) :
    let taken := file.services.flatMap fun service => serviceNames service.name
    Imports.Labelled (taken ++ [grpcName]) grpcName
      ((file.methodModules table).map Path.importAlias) (serviceImports services js taken) := by
  intro taken
  have resolved := references_of_signatures signed
  have start : Imports.Labelled (taken ++ [grpcName]) grpcName []
      (Imports.fixed ⟨false, taken ++ [grpcName], []⟩ grpcName (grpcRuntime js)) := by
    refine ⟨rfl, by simp, ?_, ?_, rfl⟩
    · intro name preferred n member
      rcases List.mem_append.mp member with inService | last
      · obtain ⟨service, -, named⟩ := List.mem_flatMap.mp inService
        exact label_notMem_serviceNames preferred n service.name named
      · exact label_ne_grpcName preferred n (List.mem_singleton.mp last)
    · intro name
      change name ∈ grpcName :: (taken ++ [grpcName]) ↔ _
      simp only [Imports.labels, List.mapIdx_nil, List.mem_cons, List.mem_append,
        List.not_mem_nil, or_false]
      tauto
  have paths : ∀ target ∈ services.flatMap Service.references,
      target.importPath = Path.importPath file.path target.file table.importStyle := by
    intro target member
    obtain ⟨name, -, found⟩ := Result.exists_of_mem_forall₂ resolved member
    exact (SymbolTable.resolve_eq_ok found).2.2
  have aliases : ∀ target ∈ services.flatMap Service.references,
      target.importName = Path.importAlias target.file := by
    intro target member
    obtain ⟨name, -, found⟩ := Result.exists_of_mem_forall₂ resolved member
    exact SymbolTable.importName_of_resolve found
  have collected := start.addAll
    (fun path => Path.importPath file.path path table.importStyle) paths aliases
  -- The path of the runtime is none of a message module.
  have new : ∀ path ∈ file.methodModules table,
      Path.importPath file.path path table.importStyle ∉ [grpcRuntime js] := by
    intro path _ known
    have suffix := Path.suffix_importPath file.path path table.importStyle
    rw [List.mem_singleton.mp known] at suffix
    exact grpcRuntime_not_suffix js suffix
  rw [files_of_references resolved] at collected
  change Imports.Labelled _ _ ([] ++ ((file.methodModules table).filter fun path =>
    Path.importPath file.path path table.importStyle ∉ [grpcRuntime js]).map _) _ at collected
  rwa [List.filter_eq_self.mpr (by simpa using new), List.nil_append] at collected

private theorem topLevelNames_spelled (comments : Bool) (spell : Resolution → Text)
    {service : Schema.Service} {signed : Service Signature}
    (made : Service.signatures table file.path options service = .ok signed) :
    (signed.spelled comments spell).topLevelNames = serviceNames service.name ++
      service.methods.map fun method => interfaceName service.name method.name := by
  have name : signed.name = service.name := by
    rw [Service.signatures] at made
    obtain ⟨_, -, rest⟩ := Result.bind_eq_ok.mp made
    obtain rfl := Result.pure_eq_ok.mp rest
    rfl
  have interfaces : service.methods.map (fun method => interfaceName service.name method.name) =
      signed.methods.map fun signature => interfaceName service.name signature.method.name := by
    apply Result.map_eq_map_iff.mpr
    refine (Service.signatures_eq_ok made).imp ?_
    intro method signature signatureMade
    rw [(Signature.ofSchema_eq_ok signatureMade).1]
  rw [Service.topLevelNames, Service.spelled, name, List.map_map, interfaces]
  rfl

theorem ServiceFile.ofSchema_eq_ofSigned {emitted : ServiceFile}
    (made : ServiceFile.ofSchema file table options = .ok (some emitted)) :
    ∃ services, List.Forall₂ (fun service signed =>
        Service.signatures table file.path options service = .ok signed) file.services services ∧
      ServiceFile.ofSigned file options services = emitted := by
  rw [ServiceFile.ofSchema_eq_map] at made
  split at made
  · simp at made
  · obtain ⟨services, signed, same⟩ := Result.map_eq_ok.mp made
    exact ⟨services, Result.mapM_eq_ok.mp signed, Option.some.inj same⟩

private theorem mem_topLevelNames_ofSigned
    (signed : List.Forall₂ (fun service signed =>
      Service.signatures table file.path options service = .ok signed) file.services services)
    {name : Text} :
    name ∈ (ServiceFile.ofSigned file options services).services.flatMap Service.topLevelNames ↔
      ∃ service ∈ file.services, name ∈ serviceNames service.name ∨
        ∃ method ∈ service.methods, interfaceName service.name method.name = name := by
  have names : (ServiceFile.ofSigned file options services).services.map Service.topLevelNames =
      file.services.map fun service => serviceNames service.name ++
        service.methods.map fun method => interfaceName service.name method.name := by
    rw [ServiceFile.ofSigned, List.map_map, eq_comm]
    apply Result.map_eq_map_iff.mpr
    refine signed.imp ?_
    intro service signedService made
    exact (topLevelNames_spelled options.comments _ made).symm
  rw [List.flatMap_def, names, ← List.flatMap_def, List.mem_flatMap]
  simp only [List.mem_append, List.mem_map]

end

/-- Where the names of imports and those of declarations meet. A service's own names never do. The
name of a method's interface does if it is the preferred name of an imported module, or that name
with a number below the number of imported modules that prefer it. -/
theorem serviceAliases_free_iff {file : Schema.File} {table : SymbolTable} {options : Options}
    {emitted : ServiceFile} (made : ServiceFile.ofSchema file table options = .ok (some emitted)) :
    (∀ entry ∈ emitted.imports, entry.name ∉ emitted.services.flatMap Service.topLevelNames) ↔
      ∀ service ∈ file.services, ∀ method ∈ service.methods,
        ∀ path ∈ file.methodModules table,
          ∀ n < ((file.methodModules table).map Path.importAlias).count (Path.importAlias path),
            interfaceName service.name method.name ≠ Imports.label (Path.importAlias path) n := by
  obtain ⟨services, signed, rfl⟩ := ServiceFile.ofSchema_eq_ofSigned made
  have labelled := labelled_serviceImports options.grpcJs signed
  have entries : (ServiceFile.ofSigned file options services).imports.map Import.name = _ :=
    labelled.entries
  constructor
  · intro free service serviceMember method methodMember path _ n bound same
    have label : Imports.label (Path.importAlias path) n ∈
        (ServiceFile.ofSigned file options services).imports.map Import.name := by
      rw [entries]
      exact List.mem_cons_of_mem _ (Imports.mem_labels.mpr ⟨_, n, bound, rfl⟩)
    obtain ⟨entry, member, named⟩ := List.mem_map.mp label
    apply free entry member
    rw [named, mem_topLevelNames_ofSigned signed]
    exact ⟨service, serviceMember, Or.inr ⟨method, methodMember, same⟩⟩
  · intro apart entry member declared
    obtain ⟨service, serviceMember, origin⟩ := (mem_topLevelNames_ofSigned signed).mp declared
    have imported : entry.name ∈ grpcName :: Imports.labels _ :=
      entries ▸ List.mem_map_of_mem member
    rcases List.mem_cons.mp imported with runtime | label
    · rw [runtime] at origin
      rcases origin with own | ⟨method, -, same⟩
      · exact grpcName_notMem_serviceNames service.name own
      · exact grpcName_ne_interfaceName service.name method.name same.symm
    · obtain ⟨name, n, bound, same⟩ := Imports.mem_labels.mp label
      have preferring : name ∈ (file.methodModules table).map Path.importAlias :=
        List.count_pos_iff.mp (by omega)
      rw [same] at origin
      rcases origin with own | ⟨method, methodMember, clash⟩
      · exact label_notMem_serviceNames (labelled.preferred name preferring) n service.name own
      · obtain ⟨path, pathMember, rfl⟩ := List.mem_map.mp preferring
        exact apart service serviceMember method methodMember path pathMember n bound clash

/-- A service with one method. Its request and its response are declared in two files that prefer
the same name. -/
def namesakeFiles (method : Text) : List Schema.File :=
  [{ path := "s.proto"
     services := [{
       name := "S"
       fullName := ".S"
       methods := [{ name := method, inputType := ".a.A", outputType := ".b.B" }] }] },
   { path := "ISService_Ix.proto"
     package := "a"
     messages := [{ name := "A", fullName := ".a.A" }] },
   { path := "ISService/Ix.proto"
     package := "b"
     messages := [{ name := "B", fullName := ".b.B" }] }]

/-- The first number that is not given is free for the interface of a method. -/
theorem serviceAliases_free_iff_namesakes :
    ∃ table file emitted, SymbolTable.ofFiles .fromRoot (namesakeFiles "x_pb_2") = .ok table ∧
      file ∈ namesakeFiles "x_pb_2" ∧
      ServiceFile.ofSchema file table {} = .ok (some emitted) ∧
      ∀ entry ∈ emitted.imports, entry.name ∉ emitted.services.flatMap Service.topLevelNames := by
  have built : SymbolTable.ofFiles .fromRoot (namesakeFiles "x_pb_2") =
    .ok ⟨Symbol.ofFiles (namesakeFiles "x_pb_2"), .fromRoot⟩ := rfl
  have services : ∃ emitted, ServiceFile.ofSchema (namesakeFiles "x_pb_2")[0]
    ⟨Symbol.ofFiles (namesakeFiles "x_pb_2"), .fromRoot⟩ {} = .ok (some emitted) := ⟨_, rfl⟩
  obtain ⟨emitted, made⟩ := services
  refine ⟨_, _, emitted, built, List.getElem_mem _, made, ?_⟩
  apply (serviceAliases_free_iff made).mpr
  decide +kernel

/-- The interface of the method `x_pb` is called as the import of its request is. -/
theorem serviceAliases_clash_namesakes :
    ∃ table file emitted, SymbolTable.ofFiles .fromRoot (namesakeFiles "x_pb") = .ok table ∧
      file ∈ namesakeFiles "x_pb" ∧
      ServiceFile.ofSchema file table {} = .ok (some emitted) ∧
      ∃ entry ∈ emitted.imports,
        entry.name ∈ emitted.services.flatMap Service.topLevelNames := by
  refine ⟨_, (namesakeFiles "x_pb")[0], _, rfl, List.getElem_mem _, rfl,
    ⟨"ISService_Ix_pb", "./ISService_Ix_pb"⟩, ?_, ?_⟩
  · decide +kernel
  · decide +kernel

end Declaration

end ProtoTypings
