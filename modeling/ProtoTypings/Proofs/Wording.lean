import ProtoTypings.Schema.OfDescriptor

set_option autoImplicit false
set_option relaxedAutoImplicit false

/-!
The wording of failures, as far as line breaks are concerned. A message shows some texts in quotes
and others as they are. A quoted text never breaks the line, and neither do numbers and the program's
own words, so a message is one line exactly if the texts that it shows as they are have no line break.
-/

namespace ProtoTypings

namespace Text

def OneLine (s : Text) : Prop := newline ∉ s

instance (s : Text) : Decidable s.OneLine := inferInstanceAs (Decidable (newline ∉ s))

@[simp] theorem oneLine_nil : OneLine [] := List.not_mem_nil

@[simp] theorem oneLine_cons {byte : UInt8} {s : Text} :
    OneLine (byte :: s) ↔ byte ≠ newline ∧ s.OneLine := by
  rw [OneLine, OneLine, List.mem_cons, not_or, ne_comm]

@[simp] theorem oneLine_append {s t : Text} : OneLine (s ++ t) ↔ s.OneLine ∧ t.OneLine := by
  rw [OneLine, List.mem_append, not_or]
  rfl

private theorem oneLine_flatMap {α : Type} {f : α → Text} {xs : List α} :
    OneLine (xs.flatMap f) ↔ ∀ x ∈ xs, (f x).OneLine := by
  simp [OneLine]

theorem OneLine.of_subset {s t : Text} (oneLine : t.OneLine) (part : s ⊆ t) : s.OneLine :=
  fun member => oneLine (part member)

private theorem toUInt8_digitChar (digit : Nat) : (Nat.digitChar digit).toUInt8 ≠ newline := by
  rcases Nat.lt_or_ge digit 16 with small | large
  · revert digit
    decide
  · have other : Nat.digitChar digit = '*' := by
      unfold Nat.digitChar
      simp (disch := omega) only [if_neg]
    rw [other]
    decide

private theorem oneLine_toDigits (base n : Nat) :
    OneLine ((Nat.toDigits base n).map Char.toUInt8) := by
  have core (fuel n : Nat) (digits : List Char) (before : OneLine (digits.map Char.toUInt8)) :
      OneLine ((Nat.toDigitsCore base fuel n digits).map Char.toUInt8) := by
    induction fuel generalizing n digits with
    | zero => exact before
    | succ fuel ih =>
      have longer : OneLine ((Nat.digitChar (n % base) :: digits).map Char.toUInt8) :=
        oneLine_cons.mpr ⟨toUInt8_digitChar _, before⟩
      rw [Nat.toDigitsCore]
      split
      · exact longer
      · exact ih _ _ longer
  exact core _ n [] oneLine_nil

@[simp] theorem oneLine_ofNat (n : Nat) : OneLine (ofNat n) := oneLine_toDigits 10 n

@[simp] theorem oneLine_ofInt (n : Int) : OneLine (ofInt n) := by
  cases n with
  | ofNat n => exact oneLine_ofNat n
  | negSucc n => exact oneLine_cons.mpr ⟨by decide, oneLine_ofNat (n + 1)⟩

@[simp] theorem oneLine_hexPadded (width n : Nat) : OneLine (hexPadded width n) := by
  refine oneLine_append.mpr ⟨?_, oneLine_toDigits 16 n⟩
  intro member
  exact absurd (List.eq_of_mem_replicate member) (by decide)

end Text

namespace Utf8

private theorem isTail_ge {byte : UInt8} (tail : isTail byte = true) : 0x80 ≤ byte := by
  simp only [isTail, Bool.and_eq_true, decide_eq_true_eq] at tail
  exact tail.1

private theorem isSecond_ge {first second : UInt8} (allowed : isSecond first second = true) :
    0x80 ≤ second := by
  unfold isSecond isTail at allowed
  grind

private theorem leading?_cases {s : Text} {code width : Nat}
    (found : leading? s = some (code, width)) :
    (∃ byte, s.take width = [byte] ∧ code = byte.toNat) ∨ ∀ byte ∈ s.take width, 0x80 ≤ byte := by
  fun_cases leading? s with
  | case1 => cases found
  | case2 a rest low =>
    simp only [leading?, low, if_true, Option.some.injEq, Prod.mk.injEq] at found
    obtain ⟨rfl, rfl⟩ := found
    exact Or.inl ⟨a, rfl, rfl⟩
  | case3 a high b rest two =>
    simp only [leading?, high, two, if_true, if_false, Option.some.injEq, Prod.mk.injEq] at found
    obtain ⟨-, rfl⟩ := found
    simp only [Bool.and_eq_true] at two
    right
    simpa using ⟨UInt8.not_lt.mp high, isTail_ge two.2⟩
  | case4 a high b notTwo c rest three =>
    simp only [leading?, high, notTwo, three, if_true, if_false] at found
    obtain ⟨-, rfl⟩ := Prod.mk.inj (Option.some.inj found)
    simp only [Bool.and_eq_true] at three
    right
    simpa using ⟨UInt8.not_lt.mp high, isSecond_ge three.1.2, isTail_ge three.2⟩
  | case5 a high b notTwo c notThree d rest four =>
    simp only [leading?, high, notTwo, notThree, four, if_true, if_false] at found
    obtain ⟨-, rfl⟩ := Prod.mk.inj (Option.some.inj found)
    simp only [Bool.and_eq_true] at four
    right
    simpa using
      ⟨UInt8.not_lt.mp high, isSecond_ge four.1.1.2, isTail_ge four.1.2, isTail_ge four.2⟩
  | case6 a high b notTwo c notThree d rest notFour =>
    simp [leading?, high, notTwo, notThree, notFour] at found
  | case7 a high b notTwo c notThree => simp [leading?, high, notTwo, notThree] at found
  | case8 a high b notTwo => simp [leading?, high, notTwo] at found
  | case9 a high => simp [leading?, high] at found

private theorem oneLine_of_leading? {s : Text} {code width : Nat}
    (found : leading? s = some (code, width))
    (other : code ≠ Text.newline.toNat) : Text.OneLine (s.take width) := by
  rcases leading?_cases found with ⟨byte, bytes, rfl⟩ | high
  · rw [bytes]
    have differs : byte ≠ Text.newline := fun same => other (congrArg UInt8.toNat same)
    simpa using differs
  · intro member
    exact absurd (high _ member) (by decide)

/-- The only character with a line break among its bytes is the line break. -/
private theorem oneLine_of_mem_pieces {s : Text} {code : Nat} {bytes : Text}
    (member : .character code bytes ∈ pieces s) (other : code ≠ Text.newline.toNat) :
    bytes.OneLine := by
  have after (skip : Nat) (s : Text) (member : .character code bytes ∈ piecesAfter skip s) :
      bytes.OneLine := by
    fun_induction piecesAfter skip s with
    | case1 skip => cases member
    | case2 skip byte rest ih => exact ih member
    | case3 byte rest first width found ih =>
      rcases List.mem_cons.mp member with same | later
      · obtain ⟨rfl, rfl⟩ := Piece.character.inj same
        exact oneLine_of_leading? found other
      · exact ih later
    | case4 byte rest none ih =>
      rcases List.mem_cons.mp member with same | later
      · cases same
      · exact ih later
  exact after 0 s member

end Utf8

namespace Quoted

private theorem oneLine_letterEscape {code : Nat} {escape : Text}
    (found : letterEscape? code = some escape) : escape.OneLine := by
  unfold letterEscape? at found
  split at found
  case h_8 => cases found
  all_goals
    obtain rfl := Option.some.inj found
    decide

private theorem oneLine_numberEscape (code : Nat) : Text.OneLine (numberEscape code) := by
  unfold numberEscape
  split
  · exact Text.oneLine_append.mpr ⟨by decide, Text.oneLine_hexPadded 2 code⟩
  · split
    · exact Text.oneLine_append.mpr ⟨by decide, Text.oneLine_hexPadded 4 code⟩
    · exact Text.oneLine_append.mpr ⟨by decide, Text.oneLine_hexPadded 8 code⟩

private theorem oneLine_escape (code : Nat) :
    Text.OneLine ((letterEscape? code).getD (numberEscape code)) := by
  cases found : letterEscape? code with
  | none => exact oneLine_numberEscape code
  | some escape => exact oneLine_letterEscape found

private theorem oneLine_character {quote : UInt8} (mark : quote ≠ Text.newline) {code : Nat}
    {bytes : Text} (oneLine : code ≠ Text.newline.toNat → bytes.OneLine) :
    Text.OneLine (character quote code bytes) := by
  by_cases lineBreak : code = Text.newline.toNat
  · have notQuote : code ≠ quote.toNat := fun same =>
      mark (UInt8.toNat_inj.mp (same.symm.trans lineBreak))
    have notBackslash : code ≠ 92 := by
      rw [lineBreak]
      decide
    have hidden : Printable.contains code = false := by
      rw [lineBreak]
      decide +kernel
    rw [character, if_neg (by simp [notQuote, notBackslash]), if_neg (by simp [hidden])]
    exact oneLine_escape code
  · unfold character
    split
    · exact Text.oneLine_cons.mpr ⟨by decide, oneLine lineBreak⟩
    · split
      · exact oneLine lineBreak
      · exact oneLine_escape code

@[simp] theorem oneLine_text (s : Text) : Text.OneLine (text s) := by
  refine Text.oneLine_cons.mpr ⟨by decide, Text.oneLine_append.mpr ⟨?_, by decide⟩⟩
  refine Text.oneLine_flatMap.mpr fun shown member => ?_
  cases shown with
  | character code bytes =>
    exact oneLine_character (by decide) (Utf8.oneLine_of_mem_pieces member)
  | stray byte => exact Text.oneLine_append.mpr ⟨by decide, Text.oneLine_hexPadded 2 byte.toNat⟩

@[simp] theorem oneLine_byte (b : UInt8) : Text.OneLine (byte b) := by
  have all : ∀ code < 256, code ≠ Text.newline.toNat →
      Text.OneLine (String.utf8EncodeChar (Char.ofUInt8 (UInt8.ofNat code))) := by
    decide +kernel
  refine Text.oneLine_cons.mpr ⟨by decide, Text.oneLine_append.mpr ⟨?_, by decide⟩⟩
  refine oneLine_character (by decide) fun other => ?_
  have encoded := all b.toNat b.toNat_lt other
  rwa [UInt8.ofNat_toNat] at encoded

end Quoted

private theorem Enumeration.oneLine_nameOf {e : Enumeration} (title : Text.OneLine (e.title : Text))
    (names : ∀ name ∈ e.names, Text.OneLine (name : Text)) (code : Int) :
    Text.OneLine (e.nameOf code) := by
  have unnamed : Text.OneLine (e.title ++ "(" ++ Text.ofInt code ++ ")") := by
    simp only [Text.oneLine_append, Text.oneLine_ofInt, title, true_and, and_true]
    decide
  cases code with
  | negSucc n => exact unnamed
  | ofNat n =>
    cases found : e.names[n]? with
    | none => simpa [nameOf, found] using unnamed
    | some name => simpa [nameOf, found] using names name (List.mem_of_getElem? found)

@[simp] theorem Schema.FieldKind.oneLine_name (kind : Schema.FieldKind) : kind.name.OneLine :=
  Enumeration.oneLine_nameOf (by decide) (by decide) kind.code

private theorem Setting.oneLine_labels (setting : Setting) :
    setting.ownVariable.OneLine ∧ setting.label.OneLine ∧ setting.typeName.OneLine := by
  cases setting <;> decide

@[simp] theorem Yaml.Flaw.oneLine_message (flaw : Yaml.Flaw) : flaw.message.OneLine := by
  have line (n : Nat) : (message.line n).OneLine := by
    unfold message.line
    split
    · exact Text.oneLine_nil
    · simp +decide
  cases flaw with
  | controlCharacter => decide
  | documentMark linesBefore => simp +decide [message, line]
  | tooDeep linesBefore => simp +decide [message, line]

private theorem Numeral.Flaw.oneLine_message (flaw : Numeral.Flaw) {reader : Text}
    (known : reader.OneLine) (value : Text) : (flaw.message reader value).OneLine := by
  cases flaw <;> simp +decide [message, known]

/-- The texts that the description of a place shows as they are. -/
def Place.bareTexts : Place → List Text
  | .note text => [text]
  | .message name | .nestedMessage name | .extension name => [name]
  | .method service name => [service, name]
  | _ => []

private theorem Place.oneLine_describe (place : Place) :
    place.describe.OneLine ↔ ∀ text ∈ place.bareTexts, text.OneLine := by
  cases place <;> simp +decide [describe, bareTexts]

def Unsupported.bareTexts : Unsupported → List Text
  | .notEnum name | .notMessage name | .stated name => [name]
  | _ => []

private theorem Unsupported.oneLine_message (reason : Unsupported) :
    reason.message.OneLine ↔ ∀ text ∈ reason.bareTexts, text.OneLine := by
  cases reason <;> simp +decide [message, bareTexts]

namespace Fault

/-- The texts that the message of a failure shows as they are, not in quotes. -/
def bareTexts : Fault → List Text
  | .within place inner => place.bareTexts ++ inner.bareTexts
  | .malformedBy reason inner => reason :: inner.bareTexts
  | .unrenderable layout _ inner => layout :: inner.bareTexts
  | .unsupported _ _ reason => reason.bareTexts
  | .undecodable (.notSet text) | .stated text | .malformed text | .badSetting _ text _ |
    .badFlag text | .unknownFlag text | .unknownShorthand _ text | .flagWithoutValue text |
    .noSuchFile text => [text]
  | _ => []

theorem oneLine_message (fault : Fault) :
    fault.message.OneLine ↔ ∀ text ∈ fault.bareTexts, text.OneLine := by
  induction fault with
  | within place inner ih =>
    rw [bareTexts, List.forall_mem_append, ← ih, ← place.oneLine_describe]
    simp +decide [message]
  | malformedBy reason inner ih =>
    rw [bareTexts, List.forall_mem_cons, ← ih]
    simp +decide [message]
  | unrenderable layout file inner ih =>
    rw [bareTexts, List.forall_mem_cons, ← ih, message]
    split <;> simp +decide
  | unsupported field kind reason =>
    rw [bareTexts, ← reason.oneLine_message, message]
    split
    · rename_i empty
      simp +decide [empty]
    · simp +decide
  | undecodable flaw => cases flaw <;> simp +decide [message, bareTexts, Wire.Flaw.message]
  | badSetting setting value flaw =>
    obtain ⟨named, labelled, typed⟩ := setting.oneLine_labels
    have reader : (if setting = .verbose then "ParseInt" else "ParseBool" : Text).OneLine := by
      split <;> decide
    simp +decide [message, bareTexts, named, labelled, typed, flaw.oneLine_message reader value]
  | badFlagValue flag value =>
    have parsed := Numeral.Flaw.invalidSyntax.oneLine_message
      (show Text.OneLine ("ParseBool" : Text) by decide) value
    simp +decide [message, bareTexts, parsed]
  | _ => simp +decide [message, bareTexts]

/-- The diagnostic of a failure is one line exactly if no text that its message shows as it is has a
line break. -/
theorem count_newline_diagnostic (fault : Fault) :
    fault.diagnostic.count Text.newline = 1 ↔ ∀ text ∈ fault.bareTexts, text.OneLine := by
  have heading : Text.OneLine ("protoc-gen-tsd: " ++ fault.kind.name ++ ": ") := by
    cases fault.kind <;> decide
  have start := List.count_eq_zero_of_not_mem heading
  have lines : fault.diagnostic.count Text.newline = fault.message.count Text.newline + 1 := by
    rw [diagnostic, List.count_append, List.count_append, start, List.count_singleton_self]
    omega
  rw [lines, ← fault.oneLine_message, Text.OneLine, ← List.count_eq_zero]
  omega

end Fault

namespace Schema

/-- The texts of a field that failures to type it may show as they are. -/
def Field.bareTexts (field : Field) : List Text :=
  field.typeName :: match field.map with
    | some ⟨key, value⟩ => (key.toList ++ value.toList).map Field.typeName
    | none => []

def Field.extensionTexts (field : Field) : List Text := field.name :: field.bareTexts

mutual

def Message.bareTexts : Message → List Text
  | { fields, messages, extensions, .. } =>
    fields.flatMap Field.bareTexts ++ (Message.bareTextsOfAll messages ++
      extensions.flatMap Field.extensionTexts)

def Message.bareTextsOfAll : List Message → List Text
  | [] => []
  | message :: rest => message.name :: (message.bareTexts ++ Message.bareTextsOfAll rest)

end

theorem Message.forall_bareTextsOfAll {messages : List Message} {P : Text → Prop} :
    (∀ text ∈ bareTextsOfAll messages, P text) ↔
      ∀ message ∈ messages, P message.name ∧ ∀ text ∈ message.bareTexts, P text := by
  induction messages with
  | nil => simp [bareTextsOfAll]
  | cons message rest ih =>
    rw [bareTextsOfAll, List.forall_mem_cons, List.forall_mem_append, ih, List.forall_mem_cons,
      and_assoc]

def Service.bareTexts (service : Service) : List Text :=
  service.methods.flatMap fun method => [service.name, method.name]

def File.bareTexts (file : File) : List Text :=
  Message.bareTextsOfAll file.messages ++ (file.extensions.flatMap Field.extensionTexts ++
    file.services.flatMap Service.bareTexts)

end Schema

namespace Descriptor

mutual

/-- The texts of a message in a scope that failures may show as they are: names of messages, with
and without their scopes, names of extensions and names of types. -/
def Message.bareTexts (scope : Text) : Message → List Text
  | { name, fields, nested, extensions, .. } =>
    name :: (scope ++ Text.dot :: name) :: (fields.map Field.typeName ++
      (Message.bareTextsOfAll (scope ++ Text.dot :: name) nested ++
        extensions.flatMap fun extension => [extension.name, extension.typeName]))

def Message.bareTextsOfAll (scope : Text) : List Message → List Text
  | [] => []
  | message :: rest => message.bareTexts scope ++ Message.bareTextsOfAll scope rest

end

theorem Message.bareTextsOfAll_eq_flatMap (scope : Text) (messages : List Message) :
    bareTextsOfAll scope messages = messages.flatMap (bareTexts scope) := by
  induction messages with
  | nil => rfl
  | cons message rest ih => rw [bareTextsOfAll, ih, List.flatMap_cons]

def File.bareTexts (file : File) : List Text :=
  Message.bareTextsOfAll (Schema.packageScope file.package) file.messages ++
    (file.extensions.flatMap (fun extension => [extension.name, extension.typeName]) ++
      file.services.flatMap fun service =>
        service.methods.flatMap fun method => [service.name, method.name])

end Descriptor

end ProtoTypings
