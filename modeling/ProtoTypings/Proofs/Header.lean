import Mathlib.Data.List.TakeWhile
import ProtoTypings.Proofs.Lines
import ProtoTypings.Symbol

set_option autoImplicit false
set_option relaxedAutoImplicit false

/-!
The lines that open the declarations of messages and enums in generated text. Such a line can be read
back, also after indentation, and a text laid out in parts has the headers of its parts.
-/

namespace ProtoTypings

namespace Layout

/-- The line that opens the declaration of a message or an enum. -/
structure Header where
  /-- The spaces in front. -/
  columns : Nat
  kind : SymbolKind
  name : Text
  deriving DecidableEq, Repr

namespace Header

def opening : SymbolKind → Text
  | .message => "export class "
  | .enum => "export interface "

def closing : SymbolKind → Text
  | .message => " extends jspb.Message \x7b"
  | .enum => "Map \x7b"

def line (header : Header) : Text :=
  List.replicate header.columns 32 ++ (opening header.kind ++ header.name ++ closing header.kind)

def moved (columns : Nat) (header : Header) : Header :=
  { header with columns := columns + header.columns }

/-- The name between the opening and the closing words of a kind of header. -/
def nameIn? (s : Text) (kind : SymbolKind) : Option Text :=
  ((opening kind).isPrefixOf? s).bind (closing kind).isSuffixOf?

/-- What a line without spaces in front opens. -/
def opened? (s : Text) : Option (SymbolKind × Text) :=
  [SymbolKind.message, .enum].findSome? fun kind => (nameIn? s kind).map (kind, ·)

def read? (line : Text) : Option Header :=
  (opened? (line.dropWhile (· = 32))).map fun (kind, name) =>
    ⟨(line.takeWhile (· = 32)).length, kind, name⟩

private theorem nameIn?_eq_some_iff {s name : Text} {kind : SymbolKind} :
    nameIn? s kind = some name ↔ s = opening kind ++ name ++ closing kind := by
  simp only [nameIn?, Option.bind_eq_some_iff, List.isPrefixOf?_eq_some_iff_append_eq,
    List.isSuffixOf?_eq_some_iff_append_eq]
  constructor
  · rintro ⟨_, rfl, rfl⟩
    rw [List.append_assoc]
  · rintro rfl
    exact ⟨_, (List.append_assoc _ _ _).symm, rfl⟩

private theorem opened?_eq_some_iff {s name : Text} {kind : SymbolKind} :
    opened? s = some (kind, name) ↔ s = opening kind ++ name ++ closing kind := by
  rw [← nameIn?_eq_some_iff]
  constructor
  · intro found
    obtain ⟨other, -, read⟩ := List.exists_of_findSome?_eq_some found
    obtain ⟨_, inside, same⟩ := Option.map_eq_some_iff.mp read
    obtain ⟨rfl, rfl⟩ := Prod.mk.inj same
    exact inside
  · intro inside
    cases kind with
    | message => simp [opened?, inside]
    | enum =>
      -- An interface is no class, so the first attempt to read the line fails.
      have noClass : nameIn? s .message = none := by
        rw [nameIn?_eq_some_iff.mp inside]
        rfl
      simp [opened?, inside, noClass]

private theorem dropWhile_opening (kind : SymbolKind) (s : Text) :
    (opening kind ++ s).dropWhile (· = 32) = opening kind ++ s ∧
      (opening kind ++ s).takeWhile (· = 32) = [] := by
  cases kind <;> exact ⟨rfl, rfl⟩

private theorem space_of_mem_replicate {columns : Nat} :
    ∀ byte ∈ List.replicate columns (32 : UInt8), decide (byte = 32) = true := by
  intro byte member
  simp [List.eq_of_mem_replicate member]

private theorem read?_eq_some_iff {line : Text} {header : Header} :
    read? line = some header ↔ line = header.line := by
  obtain ⟨columns, kind, name⟩ := header
  constructor
  · intro read
    obtain ⟨⟨_, _⟩, found, same⟩ := Option.map_eq_some_iff.mp read
    obtain ⟨rfl, rfl, rfl⟩ := Header.mk.inj same
    have front : line.takeWhile (· = 32) =
        List.replicate (line.takeWhile (· = 32)).length 32 :=
      List.eq_replicate_length.mpr fun byte member => by
        simpa using List.mem_takeWhile_imp member
    rw [Header.line, ← front, ← opened?_eq_some_iff.mp found, List.takeWhile_append_dropWhile]
  · rintro rfl
    obtain ⟨kept, none⟩ := dropWhile_opening kind (name ++ closing kind)
    have found : opened? (opening kind ++ (name ++ closing kind)) = some (kind, name) :=
      opened?_eq_some_iff.mpr (List.append_assoc _ _ _).symm
    rw [read?, Header.line, List.append_assoc, List.dropWhile_append_of_pos space_of_mem_replicate, kept,
      List.takeWhile_append_of_pos space_of_mem_replicate, none, found]
    simp

private theorem read?_shift (columns : Nat) (line : Text) :
    read? (shift columns line) = (read? line).map (moved columns) := by
  by_cases empty : line = []
  · rw [empty]
    rfl
  · rw [shift_of_ne_nil empty, read?, read?, List.dropWhile_append_of_pos space_of_mem_replicate,
      List.takeWhile_append_of_pos space_of_mem_replicate, Option.map_map, List.length_append,
      List.length_replicate]
    rfl

private theorem oneLine_line {header : Header} (named : header.name.OneLine) :
    header.line.OneLine := by
  refine Text.oneLine_append.mpr ⟨fun inside => ?_, ?_⟩
  · exact absurd (List.eq_of_mem_replicate inside) (by decide)
  · cases kind : header.kind <;> simp +decide [named]

private theorem getLast?_line (header : Header) : header.line.getLast? = some 123 := by
  have closed : (closing header.kind).getLast? = some 123 := by cases header.kind <;> rfl
  exact Text.getLast?_append_of_some (Text.getLast?_append_of_some closed)

end Header

def IsHeader (line : Text) : Prop := ∃ header : Header, line = header.line

private theorem isSome_read?_iff {line : Text} : (Header.read? line).isSome ↔ IsHeader line := by
  rw [Option.isSome_iff_exists]
  exact exists_congr fun header => Header.read?_eq_some_iff

instance : DecidablePred IsHeader := fun _ => decidable_of_iff _ isSome_read?_iff

theorem filter_isHeader (lines : List Text) :
    lines.filter (fun line => IsHeader line) = (lines.filterMap Header.read?).map Header.line := by
  induction lines with
  | nil => rfl
  | cons line lines ih =>
    cases read : Header.read? line with
    | none =>
      have plain : ¬IsHeader line := by simp [← isSome_read?_iff, read]
      rw [List.filter_cons_of_neg (by simpa using plain), List.filterMap_cons_none read, ih]
    | some header =>
      have same : line = header.line := Header.read?_eq_some_iff.mp read
      have isHeader : IsHeader line := ⟨header, same⟩
      rw [List.filter_cons_of_pos (by simpa using isHeader), List.filterMap_cons_some read, ih,
        List.map_cons, same]

structure Plain (line : Text) : Prop where
  oneLine : line.OneLine
  opensNothing : Header.read? line = none

theorem plain_of_getLast? {line : Text} (oneLine : line.OneLine) {last : UInt8}
    (ends : line.getLast? = some last) (other : last ≠ 123) : Plain line := by
  refine ⟨oneLine, Option.eq_none_iff_forall_ne_some.mpr fun header read => ?_⟩
  rw [Header.read?_eq_some_iff.mp read, Header.getLast?_line] at ends
  exact other (Option.some.inj ends).symm

/-- A line that ends in a semicolon. -/
def Statement (line : Text) : Prop := line.OneLine ∧ line.getLast? = some 59

instance (line : Text) : Decidable (Statement line) :=
  inferInstanceAs (Decidable (_ ∧ _))

theorem statement_append {front ending : Text} (before : front.OneLine) (ends : Statement ending) :
    Statement (front ++ ending) :=
  ⟨Text.oneLine_append.mpr ⟨before, ends.1⟩, Text.getLast?_append_of_some ends.2⟩

theorem Statement.plain {line : Text} (statement : Statement line) : Plain line :=
  plain_of_getLast? statement.1 statement.2 (by decide)

/-- A text of whole lines, with these headers among them. -/
def Comprises (text : Text) (headers : List Header) : Prop :=
  ∃ lines, text = block lines ∧ (∀ line ∈ lines, line.OneLine) ∧
    lines.filterMap Header.read? = headers

section

variable {text more : Text} {headers others : List Header}

theorem comprises_nil : Comprises [] [] := ⟨[], rfl, by simp, rfl⟩

theorem Comprises.congr (whole : Comprises text headers) (same : headers = others) :
    Comprises text others := same ▸ whole

theorem Comprises.append (first : Comprises text headers) (second : Comprises more others) :
    Comprises (text ++ more) (headers ++ others) := by
  obtain ⟨lines, rfl, oneLine, rfl⟩ := first
  obtain ⟨lines', rfl, oneLine', rfl⟩ := second
  refine ⟨lines ++ lines', (block_append _ _).symm, fun line member => ?_, List.filterMap_append⟩
  exact (List.mem_append.mp member).elim (oneLine line) (oneLine' line)

theorem Comprises.indent (whole : Comprises text headers) (columns : Nat) :
    Comprises (indent columns text) (headers.map (Header.moved columns)) := by
  obtain ⟨lines, rfl, oneLine, rfl⟩ := whole
  refine ⟨lines.map (shift columns), indent_block oneLine columns, fun line member => ?_, ?_⟩
  · obtain ⟨source, listed, rfl⟩ := List.mem_map.mp member
    exact oneLine_shift (oneLine source listed) columns
  · rw [List.filterMap_map, List.map_filterMap]
    exact List.filterMap_congr fun line _ => Header.read?_shift columns line

theorem Comprises.below (whole : Comprises text headers) : Comprises (block [text]) headers := by
  obtain ⟨lines, rfl, oneLine, rfl⟩ := whole
  refine ⟨[] :: lines, by simp, fun line member => ?_, rfl⟩
  rcases List.mem_cons.mp member with rfl | later
  · exact Text.oneLine_nil
  · exact oneLine line later

private theorem comprises_flatMap {α : Type} {f : α → Text} {g : α → List Header} {xs : List α}
    (each : ∀ x ∈ xs, Comprises (f x) (g x)) : Comprises (xs.flatMap f) (xs.flatMap g) := by
  induction xs with
  | nil => exact comprises_nil
  | cons x xs ih =>
    exact (each x List.mem_cons_self).append (ih fun y member => each y (List.mem_cons_of_mem x member))

theorem comprises_flatMap_nil {α : Type} {f : α → Text} {xs : List α}
    (each : ∀ x ∈ xs, Comprises (f x) []) : Comprises (xs.flatMap f) [] := by
  have whole := comprises_flatMap each
  rwa [List.flatMap_eq_nil_iff.mpr fun _ _ => rfl] at whole

theorem comprises_blocks {α : Type} {f : α → Text} {header : α → Header} {xs : List α}
    (each : ∀ x ∈ xs, Comprises (f x) [header x]) :
    Comprises (block (xs.map f)) (xs.map header) := by
  rw [block_map, List.map_eq_flatMap]
  exact comprises_flatMap fun x member => (each x member).below

theorem comprises_blocks_nil {α : Type} {f : α → Text} {xs : List α}
    (each : ∀ x ∈ xs, Comprises (f x) []) : Comprises (block (xs.map f)) [] := by
  rw [block_map]
  exact comprises_flatMap_nil fun x member => (each x member).below

theorem comprises_plain {lines : List Text} (plain : ∀ line ∈ lines, Plain line) :
    Comprises (block lines) [] :=
  ⟨lines, rfl, fun line member => (plain line member).oneLine,
    List.filterMap_eq_nil_iff.mpr fun line member => (plain line member).opensNothing⟩

theorem comprises_line {line : Text} (plain : Plain line) : Comprises (block [line]) [] :=
  comprises_plain (List.forall_mem_singleton.mpr plain)

theorem comprises_header (header : Header) (named : header.name.OneLine) :
    Comprises (block [header.line]) [header] := by
  have read : Header.read? header.line = some header := Header.read?_eq_some_iff.mpr rfl
  refine ⟨[header.line], rfl, fun line member => ?_, by simp [read]⟩
  rw [List.mem_singleton.mp member]
  exact Header.oneLine_line named

end

end Layout

end ProtoTypings
