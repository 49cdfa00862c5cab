import ProtoTypings.Fault
import ProtoTypings.Identifier
import ProtoTypings.Path
import ProtoTypings.Schema.Basic

set_option autoImplicit false
set_option relaxedAutoImplicit false

/-!
Symbols: the messages and enums of all schema files by their full names, and what a reference to one
of them means in a given file.
-/

namespace ProtoTypings

inductive SymbolKind where
  | message
  | enum
  deriving DecidableEq, Repr, Inhabited

namespace SymbolKind

def enumeration : Enumeration := ⟨"Kind", ["message", "enum"]⟩

def code : SymbolKind → Int
  | .message => 0
  | .enum => 1

end SymbolKind

structure Symbol where
  /-- The full name in the schema, with a leading dot. -/
  qualifiedName : Text := []
  /-- The path of the schema file that declares it. -/
  file : Text := []
  /-- The name of its declaration, inside those of the enclosing messages. -/
  name : Text := []
  kind : SymbolKind := .message
  deriving DecidableEq, Repr

namespace Symbol

def ofEnums (file scope : Text) (enums : List Schema.Enum) : List Symbol :=
  enums.map fun enum => ⟨enum.fullName, file, Identifier.qualified scope enum.name, .enum⟩

mutual

/-- The symbols of a message in a scope: its own, those of its nested messages, those of its
enums. -/
def ofMessage (file scope : Text) : Schema.Message → List Symbol
  | { name, fullName, messages, enums, .. } =>
    let declared := Identifier.qualified scope name
    ⟨fullName, file, declared, .message⟩ :: (ofMessages file declared messages ++
      ofEnums file declared enums)

def ofMessages (file scope : Text) : List Schema.Message → List Symbol
  | [] => []
  | message :: rest => ofMessage file scope message ++ ofMessages file scope rest

end

def ofFile (file : Schema.File) : List Symbol :=
  ofMessages file.path [] file.messages ++ ofEnums file.path [] file.enums

def ofFiles (files : List Schema.File) : List Symbol := files.flatMap ofFile

end Symbol

/-- What a reference from a certain file means. -/
structure Resolution extends Symbol where
  /-- Whether the file declares the symbol itself. -/
  isLocal : Bool := false
  /-- The path by which the file imports the symbol's module. -/
  importPath : Text := []
  /-- The preferred name for that import. -/
  importName : Text := []
  deriving DecidableEq, Repr

/-- All symbols of a run, in order of declaration, and the style of imports between their files. -/
structure SymbolTable where
  symbols : List Symbol := []
  importStyle : ImportStyle := .fromRoot
  deriving DecidableEq, Repr

namespace SymbolTable

def find? (table : SymbolTable) (name : Text) : Option Symbol :=
  table.symbols.find? fun symbol => decide (symbol.qualifiedName = name)

def size (table : SymbolTable) : Nat := table.symbols.length

/-- The table with one more symbol, whose full name must be new. -/
def insert (table : SymbolTable) (symbol : Symbol) : Except Fault SymbolTable :=
  match table.find? symbol.qualifiedName with
  | some earlier => .error (.duplicate symbol.qualifiedName earlier.file symbol.file)
  | none => .ok { table with symbols := table.symbols ++ [symbol] }

/-- The table with further symbols, up to the first one whose full name is taken. -/
def insertAll (table : SymbolTable) : List Symbol → Except Fault SymbolTable
  | [] => .ok table
  | symbol :: rest =>
    match table.insert symbol with
    | .error fault => .error fault
    | .ok table => table.insertAll rest

def ofFiles (importStyle : ImportStyle) (files : List Schema.File) : Except Fault SymbolTable :=
  insertAll { importStyle } (Symbol.ofFiles files)

/-- What a reference by full name means in the file with path `source`. -/
def resolve (table : SymbolTable) (name source : Text) : Except Fault Resolution :=
  match table.find? name with
  | none => .error (.unresolved name source)
  | some symbol => .ok
    { symbol with
      isLocal := decide (symbol.file = source)
      importPath := Path.importPath source symbol.file table.importStyle
      importName := Path.importAlias symbol.file }

end SymbolTable

end ProtoTypings
