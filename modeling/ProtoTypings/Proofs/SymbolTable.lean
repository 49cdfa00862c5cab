import Mathlib.Data.List.Nodup
import ProtoTypings.Symbol

set_option autoImplicit false
set_option relaxedAutoImplicit false

/-!
The symbol table holds every declaration of the schema files once, under its full name. The
declarations are those met on a walk through the files that knows nothing of tables: each is listed
with the names of the messages around it.
-/

namespace ProtoTypings

namespace Keyed

variable {α κ : Type} [DecidableEq κ] {key : α → κ} {xs : List α}

theorem find?_eq_none_iff {k : κ} :
    xs.find? (fun x => decide (key x = k)) = none ↔ k ∉ xs.map key := by
  simp [List.find?_eq_none]

theorem find?_eq_some_iff (distinct : (xs.map key).Nodup) {k : κ} {x : α} :
    xs.find? (fun y => decide (key y = k)) = some x ↔ x ∈ xs ∧ key x = k := by
  constructor
  · intro found
    exact ⟨List.mem_of_find?_eq_some found, by simpa using List.find?_some found⟩
  · rintro ⟨member, hasKey⟩
    cases found : xs.find? (fun y => decide (key y = k)) with
    | none =>
      have absent := find?_eq_none_iff.mp found
      exact absurd (List.mem_map.mpr ⟨x, member, hasKey⟩) absent
    | some y =>
      have otherMember : y ∈ xs := List.mem_of_find?_eq_some found
      have otherKey : key y = k := by simpa using List.find?_some found
      rw [List.inj_on_of_nodup_map distinct otherMember member (otherKey.trans hasKey.symm)]

omit [DecidableEq κ] in
theorem nodup_map_concat {x : α} (distinct : (xs.map key).Nodup) (new : key x ∉ xs.map key) :
    ((xs ++ [x]).map key).Nodup := by
  rw [List.map_append, List.map_singleton, List.nodup_middle, List.append_nil]
  exact List.nodup_cons.mpr ⟨new, distinct⟩

private theorem filter_eq_nil {k : κ} (absent : k ∉ xs.map key) :
    xs.filter (fun y => decide (key y = k)) = [] := by
  rw [List.filter_eq_nil_iff]
  intro y member
  have differs : key y ≠ k := fun same => absent (List.mem_map.mpr ⟨y, member, same⟩)
  simpa using differs

theorem filter_eq_singleton (distinct : (xs.map key).Nodup) {x : α} (member : x ∈ xs) :
    xs.filter (fun y => decide (key y = key x)) = [x] := by
  induction xs with
  | nil => simp at member
  | cons y ys ih =>
    obtain ⟨fresh, rest⟩ := List.nodup_cons.mp (List.map_cons ▸ distinct)
    rcases List.mem_cons.mp member with rfl | later
    · have others : ys.filter (fun y => decide (key y = key x)) = [] := filter_eq_nil fresh
      rw [List.filter_cons_of_pos (by simp), others]
    · have differs : key y ≠ key x := fun same =>
        fresh (List.mem_map.mpr ⟨x, later, same.symm⟩)
      rw [List.filter_cons_of_neg (by simpa using differs)]
      exact ih rest later

end Keyed

/-- A message or an enum of a schema file. -/
structure Declared where
  fullName : Text
  /-- The path of the schema file that declares it. -/
  file : Text
  /-- The names of the messages around it, from the outermost in. -/
  enclosing : List Text
  name : Text
  kind : SymbolKind
  deriving DecidableEq, Repr

namespace Declared

def symbol (declared : Declared) : Symbol where
  qualifiedName := declared.fullName
  file := declared.file
  name := (declared.enclosing ++ [declared.name]).foldl Identifier.qualified []
  kind := declared.kind

def ofEnums (file : Text) (enclosing : List Text) (enums : List Schema.Enum) : List Declared :=
  enums.map fun enum => ⟨enum.fullName, file, enclosing, enum.name, .enum⟩

mutual

def ofMessage (file : Text) (enclosing : List Text) : Schema.Message → List Declared
  | { name, fullName, messages, enums, .. } =>
    ⟨fullName, file, enclosing, name, .message⟩ ::
      (ofMessages file (enclosing ++ [name]) messages ++ ofEnums file (enclosing ++ [name]) enums)

def ofMessages (file : Text) (enclosing : List Text) : List Schema.Message → List Declared
  | [] => []
  | message :: rest => ofMessage file enclosing message ++ ofMessages file enclosing rest

end

/-- All declarations of some files, file by file, the messages of a file before its enums. -/
def walk (files : List Schema.File) : List Declared :=
  files.flatMap fun file => ofMessages file.path [] file.messages ++ ofEnums file.path [] file.enums

private theorem symbols_ofEnums (file : Text) (enclosing : List Text) (enums : List Schema.Enum) :
    (ofEnums file enclosing enums).map symbol =
      Symbol.ofEnums file (enclosing.foldl Identifier.qualified []) enums := by
  simp [ofEnums, Symbol.ofEnums, symbol, Function.comp_def]

mutual

private theorem symbols_ofMessage (file : Text) (enclosing : List Text) :
    ∀ message : Schema.Message, (ofMessage file enclosing message).map symbol =
      Symbol.ofMessage file (enclosing.foldl Identifier.qualified []) message
  | { name, fullName, messages, enums, .. } => by
    have inner := symbols_ofMessages file (enclosing ++ [name]) messages
    have nestedEnums := symbols_ofEnums file (enclosing ++ [name]) enums
    rw [List.foldl_append] at inner nestedEnums
    simp only [ofMessage, Symbol.ofMessage, List.map_cons, List.map_append, inner, nestedEnums]
    simp [symbol]

private theorem symbols_ofMessages (file : Text) (enclosing : List Text) :
    ∀ messages : List Schema.Message, (ofMessages file enclosing messages).map symbol =
      Symbol.ofMessages file (enclosing.foldl Identifier.qualified []) messages
  | [] => by simp [ofMessages, Symbol.ofMessages]
  | message :: rest => by
    simp only [ofMessages, Symbol.ofMessages, List.map_append,
      symbols_ofMessage file enclosing message, symbols_ofMessages file enclosing rest]

end

private theorem symbols_walk (files : List Schema.File) :
    (walk files).map symbol = Symbol.ofFiles files := by
  have perFile : ∀ file : Schema.File,
      (ofMessages file.path [] file.messages ++ ofEnums file.path [] file.enums).map symbol =
        Symbol.ofFile file := by
    intro file
    rw [List.map_append, symbols_ofMessages, symbols_ofEnums]
    rfl
  simp only [walk, Symbol.ofFiles, List.map_flatMap, perFile]

private theorem qualifiedNames_walk (files : List Schema.File) :
    (Symbol.ofFiles files).map Symbol.qualifiedName = (walk files).map fullName := by
  rw [← symbols_walk, List.map_map]
  rfl

end Declared

namespace SymbolTable

def Distinct (table : SymbolTable) : Prop := (table.symbols.map Symbol.qualifiedName).Nodup

theorem find?_eq_some_iff {table : SymbolTable} (distinct : table.Distinct) {name : Text}
    {symbol : Symbol} :
    table.find? name = some symbol ↔ symbol ∈ table.symbols ∧ symbol.qualifiedName = name :=
  Keyed.find?_eq_some_iff distinct

private theorem insert_cases (table : SymbolTable) (symbol : Symbol) :
    (symbol.qualifiedName ∉ table.symbols.map Symbol.qualifiedName ∧
      table.insert symbol = .ok { table with symbols := table.symbols ++ [symbol] }) ∨
    ∃ earlier ∈ table.symbols, earlier.qualifiedName = symbol.qualifiedName ∧
      table.insert symbol =
        .error (.duplicate symbol.qualifiedName earlier.file symbol.file) := by
  cases found : table.find? symbol.qualifiedName with
  | none => exact Or.inl ⟨Keyed.find?_eq_none_iff.mp found, by simp only [insert, found]⟩
  | some earlier =>
    refine Or.inr ⟨earlier, List.mem_of_find?_eq_some found, ?_, by simp only [insert, found]⟩
    simpa using List.find?_some found

/-- The two ways in which insertions one after the other end: all symbols are taken, or the first
one whose full name is not new is refused. -/
theorem insertAll_cases (table : SymbolTable) (distinct : table.Distinct) (symbols : List Symbol) :
    (((table.symbols ++ symbols).map Symbol.qualifiedName).Nodup ∧
      table.insertAll symbols = .ok { table with symbols := table.symbols ++ symbols }) ∨
    ∃ before symbol after earlier, symbols = before ++ symbol :: after ∧
      ((table.symbols ++ before).map Symbol.qualifiedName).Nodup ∧
      earlier ∈ table.symbols ++ before ∧ earlier.qualifiedName = symbol.qualifiedName ∧
      table.insertAll symbols =
        .error (.duplicate symbol.qualifiedName earlier.file symbol.file) := by
  induction symbols generalizing table with
  | nil => exact Or.inl ⟨by simpa [Distinct] using distinct, by simp [insertAll]⟩
  | cons symbol rest ih =>
    rcases insert_cases table symbol with ⟨fresh, inserted⟩ | ⟨earlier, member, same, refused⟩
    · have grown : Distinct { table with symbols := table.symbols ++ [symbol] } := by
        simp only [Distinct, List.map_append, List.map_cons, List.map_nil]
        exact List.nodup_append.mpr ⟨distinct, by simp, by
          intro name member other single
          obtain rfl := List.mem_singleton.mp single
          exact fun same => fresh (same ▸ member)⟩
      rcases ih _ grown with ⟨nodup, run⟩ | ⟨before, next, after, earlier, rfl, nodup, member, same, run⟩
      · refine Or.inl ⟨by simpa using nodup, ?_⟩
        simp only [insertAll, inserted, run, List.append_assoc, List.singleton_append]
      · refine Or.inr ⟨symbol :: before, next, after, earlier, rfl, by simpa using nodup,
          by simpa using member, same, ?_⟩
        simp only [insertAll, inserted, run]
    · refine Or.inr ⟨[], symbol, rest, earlier, rfl, by simpa [Distinct] using distinct,
        by simpa using member, same, ?_⟩
      simp only [insertAll, refused]

theorem ofFiles_eq_ok {importStyle : ImportStyle} {files : List Schema.File} {table : SymbolTable}
    (built : ofFiles importStyle files = .ok table) :
    table = { symbols := Symbol.ofFiles files, importStyle } ∧ table.Distinct := by
  rcases insertAll_cases { importStyle } List.nodup_nil (Symbol.ofFiles files) with
    ⟨nodup, run⟩ | ⟨_, _, _, _, _, _, _, _, run⟩
  · obtain rfl := Except.ok.inj (run.symm.trans built)
    exact ⟨rfl, nodup⟩
  · exact absurd (run.symm.trans built) (by simp)

theorem ofFiles_eq_error {importStyle : ImportStyle} {files : List Schema.File} {fault : Fault}
    (failed : ofFiles importStyle files = .error fault) :
    ∃ name first second, fault = .duplicate name first second := by
  rcases insertAll_cases { importStyle } List.nodup_nil (Symbol.ofFiles files) with
    ⟨_, run⟩ | ⟨_, symbol, _, earlier, _, _, _, _, run⟩
  · exact absurd (run.symm.trans failed) (by simp)
  · exact ⟨_, _, _, (Except.error.inj (run.symm.trans failed)).symm⟩

end SymbolTable

namespace Declared

private theorem ofFiles_cases (importStyle : ImportStyle) (files : List Schema.File) :
    (((walk files).map fullName).Nodup ∧ SymbolTable.ofFiles importStyle files =
      .ok { symbols := (walk files).map symbol, importStyle }) ∨
    ∃ before declared after earlier, walk files = before ++ declared :: after ∧
      (before.map fullName).Nodup ∧ earlier ∈ before ∧ earlier.fullName = declared.fullName ∧
      SymbolTable.ofFiles importStyle files =
        .error (.duplicate declared.fullName earlier.file declared.file) := by
  rcases SymbolTable.insertAll_cases { importStyle } List.nodup_nil (Symbol.ofFiles files) with
    ⟨nodup, run⟩ | ⟨before, refused, after, found, split, nodup, member, same, run⟩
  · refine Or.inl ⟨?_, ?_⟩
    · rw [← qualifiedNames_walk]
      exact nodup
    · rw [symbols_walk]
      exact run
  · rw [← symbols_walk] at split
    obtain ⟨front, rest, whole, rfl, rest_eq⟩ := List.map_eq_append_iff.mp split
    obtain ⟨declared, back, rfl, rfl, -⟩ := List.map_eq_cons_iff.mp rest_eq
    obtain ⟨earlier, earlierMember, rfl⟩ := List.mem_map.mp member
    refine Or.inr ⟨front, declared, back, earlier, whole, ?_, earlierMember, same, run⟩
    simpa [Function.comp_def, symbol] using nodup

private theorem find?_symbols {declarations : List Declared}
    (distinct : (declarations.map fullName).Nodup) (importStyle : ImportStyle) (name : Text) :
    (∃ declared, declarations.filter (fun other => other.fullName = name) = [declared] ∧
      SymbolTable.find? ⟨declarations.map symbol, importStyle⟩ name = some declared.symbol) ∨
    (declarations.filter (fun other => other.fullName = name) = [] ∧
      SymbolTable.find? ⟨declarations.map symbol, importStyle⟩ name = none) := by
  have names : (declarations.map symbol).map Symbol.qualifiedName = declarations.map fullName := by
    rw [List.map_map]
    rfl
  by_cases known : name ∈ declarations.map fullName
  · obtain ⟨declared, member, rfl⟩ := List.mem_map.mp known
    refine Or.inl ⟨declared, Keyed.filter_eq_singleton distinct member, ?_⟩
    have distinctSymbols : SymbolTable.Distinct ⟨declarations.map symbol, importStyle⟩ := by
      rw [SymbolTable.Distinct, names]
      exact distinct
    exact (SymbolTable.find?_eq_some_iff distinctSymbols).mpr
      ⟨List.mem_map.mpr ⟨declared, member, rfl⟩, rfl⟩
  · refine Or.inr ⟨Keyed.filter_eq_nil known, Keyed.find?_eq_none_iff.mpr ?_⟩
    rw [names]
    exact known

/-- The table is built exactly if no two declarations share a full name. It then finds the one
declaration with a name and nothing under other names; otherwise the first declaration whose name
was met before is reported with the files of both. -/
theorem symbolTable_exact (importStyle : ImportStyle) (files : List Schema.File) :
    ((∃ table, SymbolTable.ofFiles importStyle files = .ok table) ↔
      ((walk files).map fullName).Nodup) ∧
    (∀ table, SymbolTable.ofFiles importStyle files = .ok table →
      table.size = (walk files).length ∧
      ∀ name,
        (∃ declared, (walk files).filter (fun other => other.fullName = name) = [declared] ∧
          table.find? name = some declared.symbol) ∨
        ((walk files).filter (fun other => other.fullName = name) = [] ∧
          table.find? name = none)) ∧
    (∀ fault, SymbolTable.ofFiles importStyle files = .error fault →
      ∃ before declared after earlier, walk files = before ++ declared :: after ∧
        (before.map fullName).Nodup ∧ earlier ∈ before ∧
        earlier.fullName = declared.fullName ∧
        fault = .duplicate declared.fullName earlier.file declared.file) := by
  rcases ofFiles_cases importStyle files with
    ⟨nodup, run⟩ | ⟨before, declared, after, earlier, split, nodup, member, same, run⟩
  · refine ⟨⟨fun _ => nodup, fun _ => ⟨_, run⟩⟩, ?_, ?_⟩
    · intro table built
      obtain rfl := Except.ok.inj (run.symm.trans built)
      exact ⟨by simp [SymbolTable.size], find?_symbols nodup importStyle⟩
    · intro fault failed
      exact absurd (run.symm.trans failed) (by simp)
  · have shared : ¬((walk files).map fullName).Nodup := by
      rw [split, List.map_append, List.map_cons]
      intro distinct
      have apart := (List.nodup_append.mp distinct).2.2
      exact apart _ (List.mem_map_of_mem member) _ List.mem_cons_self same
    refine ⟨⟨?_, fun distinct => absurd distinct shared⟩, ?_, ?_⟩
    · rintro ⟨table, built⟩
      exact absurd (run.symm.trans built) (by simp)
    · intro table built
      exact absurd (run.symm.trans built) (by simp)
    · intro fault failed
      obtain rfl := Except.error.inj (run.symm.trans failed)
      exact ⟨before, declared, after, earlier, split, nodup, member, same, rfl⟩

end Declared

end ProtoTypings
