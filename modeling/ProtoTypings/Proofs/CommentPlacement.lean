import ProtoTypings.Proofs.FieldConversion
import ProtoTypings.Proofs.Imports
import ProtoTypings.Proofs.OneofMembership

set_option autoImplicit false
set_option relaxedAutoImplicit false

/-!
Which comment stands on which element of a schema file. Files, messages, enums and services hold
their parts in lists, which have numbers in descriptors; a route goes from list to list. Followed
through the descriptor, with map entries left out, it gives the path of the element. Comments are
looked up by the keys of paths, which differ as the paths do, so the comment on the element is the
one at this very path.
-/

namespace ProtoTypings

namespace Text

/-- A text that can be told from its neighbours in a list with blanks between the members. -/
def IsWord (text : Text) : Prop := text ≠ [] ∧ (32 : UInt8) ∉ text

private theorem isWord_ofNat (n : Nat) : IsWord (ofNat n) := by
  refine ⟨ofNat_ne_nil n, fun blank => ?_⟩
  exact absurd (isDigit_of_mem_ofNat blank) (by decide)

private theorem isWord_ofInt (n : Int) : IsWord (ofInt n) := by
  cases n with
  | ofNat n => exact isWord_ofNat n
  | negSucc n =>
    refine ⟨List.cons_ne_nil _ _, fun blank => ?_⟩
    rcases List.mem_cons.mp blank with hyphen | digit
    · cases hyphen
    · exact (isWord_ofNat (n + 1)).2 digit

private theorem ofNat_ne_hyphen_cons (n : Nat) (rest : Text) : ofNat n ≠ hyphen :: rest := by
  intro same
  have digit : hyphen ∈ ofNat n := by
    rw [same]
    exact List.mem_cons_self
  exact absurd (isDigit_of_mem_ofNat digit) (by decide)

private theorem ofInt_injective : Function.Injective ofInt := by
  intro a b same
  cases a with
  | ofNat n =>
    cases b with
    | ofNat m => exact congrArg Int.ofNat (ofNat_injective same)
    | negSucc m => exact absurd same (ofNat_ne_hyphen_cons n _)
  | negSucc n =>
    cases b with
    | ofNat m => exact absurd same.symm (ofNat_ne_hyphen_cons m _)
    | negSucc m =>
      have digits : n + 1 = m + 1 := ofNat_injective (List.cons.inj same).2
      exact congrArg Int.negSucc (Nat.succ.inj digits)

private theorem split_join {words : List Text} (isWord : ∀ word ∈ words, IsWord word)
    (nonempty : words ≠ []) : (join " " words).splitOn 32 = words :=
  List.splitOn_intercalate 32 (fun word member => (isWord word member).2) nonempty

private theorem join_inj {words words' : List Text} (isWord : ∀ word ∈ words, IsWord word)
    (isWord' : ∀ word ∈ words', IsWord word) (same : join " " words = join " " words') :
    words = words' := by
  -- Nothing is split into one empty text, which is no word.
  have nothing {words : List Text} (isWord : ∀ word ∈ words, IsWord word)
      (empty : join " " words = []) : words = [] := by
    by_contra nonempty
    have split : [[]] = words := by
      rw [← split_join isWord nonempty, empty]
      rfl
    exact (isWord [] (by simp [← split])).1 rfl
  by_cases empty : words = []
  · subst empty
    exact (nothing isWord' same.symm).symm
  · have nonempty' : words' ≠ [] := by
      rintro rfl
      exact empty (nothing isWord same)
    rw [← split_join isWord empty, same, split_join isWord' nonempty']

end Text

namespace Schema

private theorem pathKey_injective : Function.Injective pathKey := by
  intro path path' same
  have words (path : List Int) : ∀ word ∈ path.map Text.ofInt, Text.IsWord word := by
    intro word member
    obtain ⟨n, -, rfl⟩ := List.mem_map.mp member
    exact Text.isWord_ofInt n
  have joined : Text.join " " (path.map Text.ofInt) = Text.join " " (path'.map Text.ofInt) := by
    have inside := List.append_cancel_right same
    exact List.append_cancel_left inside
  exact List.map_injective_iff.mpr Text.ofInt_injective
    (Text.join_inj (words path) (words path') joined)

/-- The comment for a path: the last one at a location with this path that is not blank, without the
blanks around it, and no text if there is none. -/
inductive IsCommentAt (locations : List Descriptor.Location) (path : List Int) : Text → Prop where
  | last {location : Descriptor.Location}
      (last : IsLast (fun l => l.path = path ∧ Blank.trim l.leadingComments ≠ []) locations
        location) : IsCommentAt locations path (Blank.trim location.leadingComments)
  | none (blank : ∀ location ∈ locations, location.path = path →
      Blank.trim location.leadingComments = []) : IsCommentAt locations path []

private theorem isCommentAt_commentAt (locations : List Descriptor.Location) (path : List Int) :
    IsCommentAt locations path (commentAt locations path) := by
  have condition (location : Descriptor.Location) :
      (decide (pathKey location.path = pathKey path) &&
        decide (trimmedComment location ≠ [])) = true ↔
      location.path = path ∧ Blank.trim location.leadingComments ≠ [] := by
    rw [Bool.and_eq_true, decide_eq_true_eq, decide_eq_true_eq, pathKey_injective.eq_iff,
      trimmedComment]
  rw [commentAt]
  split
  · rename_i location found
    have last := findRev?_eq_some_iff.mp found
    simp only [condition] at last
    exact .last last
  · rename_i absent
    refine .none fun location member samePath => ?_
    by_contra filled
    rw [List.findRev?_eq_find?_reverse, List.find?_eq_none] at absent
    exact absent location (List.mem_reverse.mpr member) ((condition location).mpr
      ⟨samePath, filled⟩)

end Schema

/-- The way from an element to one of its parts: for each level the number of a list and an index
into that list. -/
abbrev Route := List (Nat × Nat)

namespace Descriptor

inductive Element where
  | file (file : File)
  | message (message : Message)
  | field (field : Field)
  | extension (field : Field)
  | enum (enum : Enum)
  | enumValue (value : EnumValue)
  | service (service : Service)
  | method (method : Method)

def File.list (file : File) : Nat → List Element
  | 4 => file.messages.map .message
  | 5 => file.enums.map .enum
  | 6 => file.services.map .service
  | 7 => file.extensions.map .extension
  | _ => []

def Message.list (message : Message) : Nat → List Element
  | 2 => message.fields.map .field
  | 3 => message.nested.map .message
  | 4 => message.enums.map .enum
  | 6 => message.extensions.map .extension
  | _ => []

def Enum.list (enum : Enum) : Nat → List Element
  | 2 => enum.values.map .enumValue
  | _ => []

def Service.list (service : Service) : Nat → List Element
  | 2 => service.methods.map .method
  | _ => []

namespace Element

def list : Element → Nat → List Element
  | .file raw => raw.list
  | .message raw => raw.list
  | .enum raw => raw.list
  | .service raw => raw.list
  | .field _ | .extension _ | .enumValue _ | .method _ => fun _ => []

/-- The part of an element to which a path leads: numbers of lists alternate with indices. -/
def at? : Element → List Int → Option Element
  | element, [] => some element
  | element, .ofNat number :: .ofNat index :: rest =>
    match (element.list number)[index]? with
    | none => none
    | some child => child.at? rest
  | _, _ => none

def isMapEntry : Element → Bool
  | .message raw => raw.mapEntry
  | _ => false

/-- The members of a list that are converted, with their indices: all but the map entries in
messages. -/
def kept (element : Element) (number : Nat) : List (Element × Nat) :=
  match element with
  | .message raw => (raw.list number).zipIdx.filter fun placed => !placed.1.isMapEntry
  | element => (element.list number).zipIdx

/-- The path to what is converted to the part on a route. -/
def pathOf? : Element → Route → Option (List Int)
  | _, [] => some []
  | element, (number, index) :: rest =>
    match (element.kept number)[index]? with
    | none => none
    | some (child, place) => (child.pathOf? rest).map fun path => number :: place :: path

private theorem kept_sublist (element : Element) (number : Nat) :
    (element.kept number).Sublist (element.list number).zipIdx := by
  cases element with
  | message raw => exact List.filter_sublist
  | file | field | extension | enum | enumValue | service | method => exact List.Sublist.refl _

private theorem list_of_kept {element child : Element} {number index place : Nat}
    (found : (element.kept number)[index]? = some (child, place)) :
    (element.list number)[place]? = some child := by
  have member := (kept_sublist element number).subset (List.mem_of_getElem? found)
  exact List.mem_zipIdx_iff_getElem?.mp member

private theorem kept_inj {element child child' : Element} {number index index' place : Nat}
    (found : (element.kept number)[index]? = some (child, place))
    (found' : (element.kept number)[index']? = some (child', place)) :
    index = index' ∧ child = child' := by
  have distinct : ((element.kept number).map Prod.snd).Nodup := by
    refine ((kept_sublist element number).map Prod.snd).nodup ?_
    rw [List.zipIdx_map_snd]
    exact List.nodup_range'
  have places : ((element.kept number).map Prod.snd)[index]? =
      ((element.kept number).map Prod.snd)[index']? := by
    rw [List.getElem?_map, List.getElem?_map, found, found']
    rfl
  obtain ⟨bound, -⟩ := List.getElem?_eq_some_iff.mp found
  obtain rfl := (List.getElem?_inj (by simpa using bound) distinct).mp places
  exact ⟨rfl, congrArg Prod.fst (Option.some.inj (found.symm.trans found'))⟩

private theorem pathOf?_cons_eq_some_iff {element : Element} {number index : Nat} {rest : Route}
    {path : List Int} :
    element.pathOf? ((number, index) :: rest) = some path ↔
      ∃ child place below, (element.kept number)[index]? = some (child, place) ∧
        child.pathOf? rest = some below ∧ path = (number : Int) :: (place : Int) :: below := by
  rw [pathOf?]
  cases (element.kept number)[index]? with
  | none => simp
  | some placed =>
    rw [Option.map_eq_some_iff]
    constructor
    · rintro ⟨below, found, rfl⟩
      exact ⟨_, _, below, rfl, found, rfl⟩
    · rintro ⟨child, place, below, same, found, rfl⟩
      obtain rfl := Option.some.inj same
      exact ⟨below, found, rfl⟩

private theorem pathOf?_inj {element : Element} {route route' : Route} {path : List Int}
    (found : element.pathOf? route = some path) (found' : element.pathOf? route' = some path) :
    route = route' := by
  induction route generalizing element route' path with
  | nil =>
    obtain rfl := Option.some.inj found
    cases route' with
    | nil => rfl
    | cons step' rest' =>
      obtain ⟨_, _, _, -, -, same⟩ := pathOf?_cons_eq_some_iff.mp found'
      cases same
  | cons step rest ih =>
    obtain ⟨child, place, below, kept, foundBelow, rfl⟩ := pathOf?_cons_eq_some_iff.mp found
    cases route' with
    | nil => cases found'
    | cons step' rest' =>
      obtain ⟨number, index⟩ := step
      obtain ⟨number', index'⟩ := step'
      obtain ⟨child', place', below', kept', foundBelow', same⟩ :=
        pathOf?_cons_eq_some_iff.mp found'
      simp only [List.cons.injEq, Int.natCast_inj] at same
      obtain ⟨rfl, rfl, rfl⟩ := same
      obtain ⟨rfl, rfl⟩ := kept_inj kept kept'
      rw [ih foundBelow foundBelow']

private theorem kept_file {α : Type} {raw : File} {number : Nat} {make : α → Element} {xs : List α}
    (list : raw.list number = xs.map make) :
    (Element.file raw).kept number = xs.zipIdx.map (Prod.map make id) := by
  change (raw.list number).zipIdx = _
  rw [list, List.zipIdx_map]

private theorem kept_message {α : Type} {raw : Message} {number : Nat} {make : α → Element}
    {xs : List α} (list : raw.list number = xs.map make)
    (noEntry : ∀ x, (make x).isMapEntry = false) :
    (Element.message raw).kept number = xs.zipIdx.map (Prod.map make id) := by
  have all : ∀ placed ∈ (xs.map make).zipIdx, (!placed.1.isMapEntry) = true := by
    intro placed member
    obtain ⟨x, -, same⟩ := List.mem_map.mp (List.fst_mem_of_mem_zipIdx member)
    rw [← same, noEntry]
    rfl
  rw [kept, list, List.filter_eq_self.mpr all, List.zipIdx_map]

private theorem kept_nested (raw : Message) :
    (Element.message raw).kept 3 =
      (raw.nested.zipIdx.filter fun placed => !placed.1.mapEntry).map (Prod.map .message id) := by
  rw [kept, Message.list, List.zipIdx_map, List.filter_map]
  rfl

private theorem kept_values (raw : Enum) :
    (Element.enum raw).kept 2 = raw.values.zipIdx.map (Prod.map .enumValue id) :=
  List.zipIdx_map

private theorem kept_methods (raw : Service) :
    (Element.service raw).kept 2 = raw.methods.zipIdx.map (Prod.map .method id) :=
  List.zipIdx_map

end Element

end Descriptor

namespace Schema

inductive Element where
  | file (file : File)
  | message (message : Message)
  | field (field : Field)
  | extension (field : Field)
  | enum (enum : Enum)
  | enumValue (value : EnumValue)
  | service (service : Service)
  | method (method : Method)

def File.list (file : File) : Nat → List Element
  | 4 => file.messages.map .message
  | 5 => file.enums.map .enum
  | 6 => file.services.map .service
  | 7 => file.extensions.map .extension
  | _ => []

def Message.list (message : Message) : Nat → List Element
  | 2 => message.fields.map .field
  | 3 => message.messages.map .message
  | 4 => message.enums.map .enum
  | 6 => message.extensions.map .extension
  | _ => []

def Enum.list (enum : Enum) : Nat → List Element
  | 2 => enum.values.map .enumValue
  | _ => []

def Service.list (service : Service) : Nat → List Element
  | 2 => service.methods.map .method
  | _ => []

namespace Element

/-- The list of an element that is made from the list of its descriptor with a number. -/
def list : Element → Nat → List Element
  | .file made => made.list
  | .message made => made.list
  | .enum made => made.list
  | .service made => made.list
  | .field _ | .extension _ | .enumValue _ | .method _ => fun _ => []

def at? : Element → Route → Option Element
  | element, [] => some element
  | element, (number, index) :: rest =>
    match (element.list number)[index]? with
    | none => none
    | some child => child.at? rest

/-- The comment on an element. There is none on a file. -/
def comments? : Element → Option Text
  | .file _ => none
  | .message made => some made.comments
  | .field made | .extension made => some made.comments
  | .enum made => some made.comments
  | .enumValue made => some made.comments
  | .service made => some made.comments
  | .method made => some made.comments

inductive NamedAs : Element → Descriptor.Element → Prop where
  | file {raw : Descriptor.File} {made : File} (path : made.path = raw.name) :
      NamedAs (.file made) (.file raw)
  | message {raw : Descriptor.Message} {made : Message} (name : made.name = raw.name) :
      NamedAs (.message made) (.message raw)
  | field {raw : Descriptor.Field} {made : Field} (name : made.name = raw.name)
      (number : made.number = raw.number) : NamedAs (.field made) (.field raw)
  | extension {raw : Descriptor.Field} {made : Field} (name : made.name = raw.name)
      (number : made.number = raw.number) : NamedAs (.extension made) (.extension raw)
  | enum {raw : Descriptor.Enum} {made : Enum} (name : made.name = raw.name) :
      NamedAs (.enum made) (.enum raw)
  | enumValue {raw : Descriptor.EnumValue} {made : EnumValue} (name : made.name = raw.name)
      (number : made.number = raw.number) : NamedAs (.enumValue made) (.enumValue raw)
  | service {raw : Descriptor.Service} {made : Service} (name : made.name = raw.name) :
      NamedAs (.service made) (.service raw)
  | method {raw : Descriptor.Method} {made : Method} (name : made.name = raw.name) :
      NamedAs (.method made) (.method raw)

/-- An element that is converted from one of a descriptor with the given path. -/
inductive MadeFrom (locations : List Descriptor.Location) :
    List Int → Descriptor.Element → Element → Prop where
  | file {raw : Descriptor.File} {made : File} (same : raw.locations = locations)
      (converted : File.ofDescriptor raw = .ok made) :
      MadeFrom locations [] (.file raw) (.file made)
  | message {path : List Int} {scope : Text} {raw : Descriptor.Message} {made : Message}
      (converted : Message.ofDescriptor locations scope path raw = .ok made) :
      MadeFrom locations path (.message raw) (.message made)
  | field {path : List Int} {oneofs : List Oneof} {findEntry : Text → Option Descriptor.Message}
      {raw : Descriptor.Field} {made : Field}
      (converted : Field.ofDescriptor oneofs findEntry (commentAt locations path) raw = .ok made) :
      MadeFrom locations path (.field raw) (.field made)
  | extension {path : List Int} {raw : Descriptor.Field} {made : Field}
      (converted : Field.plain [] (commentAt locations path) raw = .ok made) :
      MadeFrom locations path (.extension raw) (.extension made)
  | enum {path : List Int} (scope : Text) (raw : Descriptor.Enum) :
      MadeFrom locations path (.enum raw) (.enum (.ofDescriptor locations scope path raw))
  | enumValue {path : List Int} {raw : Descriptor.EnumValue} {made : EnumValue}
      (name : made.name = raw.name) (number : made.number = raw.number)
      (comments : made.comments = commentAt locations path) :
      MadeFrom locations path (.enumValue raw) (.enumValue made)
  | service {path : List Int} (scope : Text) (raw : Descriptor.Service) :
      MadeFrom locations path (.service raw) (.service (.ofDescriptor locations scope path raw))
  | method {path : List Int} {raw : Descriptor.Method} {made : Method}
      (name : made.name = raw.name) (comments : made.comments = commentAt locations path) :
      MadeFrom locations path (.method raw) (.method made)

section

variable {locations : List Descriptor.Location} {path : List Int} {origin : Descriptor.Element}
  {element : Element}

private theorem MadeFrom.namedAs (made : MadeFrom locations path origin element) :
    element.NamedAs origin := by
  cases made with
  | file _ converted => exact .file (File.ofDescriptor_eq_ok converted).path
  | message converted => exact .message (Message.ofDescriptor_eq_ok converted).name
  | field converted =>
    obtain ⟨-, name, number, -⟩ := Field.ofDescriptor_eq_ok converted
    exact .field name number
  | extension converted =>
    obtain ⟨-, rfl⟩ := Field.plain_nil_eq_ok.mp converted
    exact .extension rfl rfl
  | enum => exact .enum rfl
  | enumValue name number => exact .enumValue name number
  | service => exact .service rfl
  | method name => exact .method name

private theorem MadeFrom.comments? (made : MadeFrom locations path origin element) {comment : Text}
    (stands : element.comments? = some comment) : comment = commentAt locations path := by
  cases made with
  | file => cases stands
  | message converted =>
    obtain ⟨_, -, _, -, _, -, rfl⟩ := Message.ofDescriptor_eq_ok_iff.mp converted
    exact (Option.some.inj stands).symm
  | field converted =>
    obtain ⟨-, -, -, -, comments⟩ := Field.ofDescriptor_eq_ok converted
    exact (Option.some.inj stands).symm.trans comments
  | extension converted =>
    obtain ⟨-, rfl⟩ := Field.plain_nil_eq_ok.mp converted
    exact (Option.some.inj stands).symm
  | enum => exact (Option.some.inj stands).symm
  | enumValue _ _ comments => exact (Option.some.inj stands).symm.trans comments
  | service => exact (Option.some.inj stands).symm
  | method _ comments => exact (Option.some.inj stands).symm.trans comments

/-- The members of a list are converted one by one, map entries apart, each with its own path. -/
def PartsFrom (locations : List Descriptor.Location) (path : List Int)
    (origin : Descriptor.Element) (number : Nat) (parts : List Element) : Prop :=
  List.Forall₂ (fun placed part =>
    MadeFrom locations (childPath path number placed.2) placed.1 part) (origin.kept number) parts

private theorem partsFrom_map {α β : Type} {number : Nat} {makeRaw : α → Descriptor.Element}
    {make : β → Element} {raws : List (α × Nat)} {members : List β}
    (kept : origin.kept number = raws.map (Prod.map makeRaw id))
    (each : List.Forall₂ (fun placed member =>
      MadeFrom locations (childPath path number placed.2) (makeRaw placed.1) (make member))
      raws members) : PartsFrom locations path origin number (members.map make) := by
  rw [PartsFrom, kept, List.forall₂_map_left_iff, List.forall₂_map_right_iff]
  exact each

private theorem partsFrom_nil {number : Nat} (none : origin.list number = []) :
    PartsFrom locations path origin number [] := by
  have sublist := Descriptor.Element.kept_sublist origin number
  rw [none] at sublist
  rw [PartsFrom, List.eq_nil_of_sublist_nil sublist]
  exact .nil

private theorem forall₂_enumsOf (scope : Text) (number : Nat) (raws : List Descriptor.Enum) :
    List.Forall₂ (fun placed enum =>
      MadeFrom locations (childPath path number placed.2) (.enum placed.1) (.enum enum))
      raws.zipIdx (enumsOf locations scope path number raws) :=
  Result.forall₂_map_self fun placed _ => .enum scope placed.1

private theorem forall₂_extensionsOf {number : Nat} {raws : List Descriptor.Field}
    {extensions : List Field}
    (converted : extensionsOf locations path number raws = .ok extensions) :
    List.Forall₂ (fun placed field =>
      MadeFrom locations (childPath path number placed.2) (.extension placed.1) (.extension field))
      raws.zipIdx extensions :=
  (Result.mapM_eq_ok.mp converted).imp fun _ _ made => .extension (Result.located_eq_ok.mp made)

private theorem partsFrom_file {raw : Descriptor.File} {file : File}
    (converted : File.ofDescriptor raw = .ok file) (number : Nat) :
    PartsFrom raw.locations [] (.file raw) number (file.list number) := by
  obtain ⟨-, messages, messagesMade, extensions, extensionsMade, rfl⟩ :=
    File.ofDescriptor_eq_ok_iff.mp converted
  unfold File.list
  split
  · have each := (Result.mapM_eq_ok.mp messagesMade).imp fun _ _ made => MadeFrom.message made
    exact partsFrom_map (Descriptor.Element.kept_file rfl) each
  · exact partsFrom_map (Descriptor.Element.kept_file rfl) (forall₂_enumsOf _ 5 raw.enums)
  · have kept : (Descriptor.Element.file raw).kept 6 =
        raw.services.zipIdx.map (Prod.map .service id) := Descriptor.Element.kept_file rfl
    refine partsFrom_map kept (Result.forall₂_map_self ?_)
    intro placed _
    exact .service (packageScope raw.package) placed.1
  · exact partsFrom_map (Descriptor.Element.kept_file rfl) (forall₂_extensionsOf extensionsMade)
  · refine partsFrom_nil ?_
    change raw.list number = []
    rw [Descriptor.File.list] <;> assumption

private theorem partsFrom_message {scope : Text} {raw : Descriptor.Message} {message : Message}
    (converted : Message.ofDescriptor locations scope path raw = .ok message) (number : Nat) :
    PartsFrom locations path (.message raw) number (message.list number) := by
  obtain ⟨fields, fieldsMade, messages, nestedMade, extensions, extensionsMade, rfl⟩ :=
    Message.ofDescriptor_eq_ok_iff.mp converted
  unfold Message.list
  split
  · have each := (Result.mapM_eq_ok.mp fieldsMade).imp fun _ _ made =>
      MadeFrom.field (Result.located_eq_ok.mp made)
    exact partsFrom_map (Descriptor.Element.kept_message rfl fun _ => rfl) each
  · rw [nestedOf_eq_mapM, Result.mapM_eq_ok] at nestedMade
    have each := nestedMade.imp fun _ _ made => MadeFrom.message made
    exact partsFrom_map (Descriptor.Element.kept_nested raw) each
  · exact partsFrom_map (Descriptor.Element.kept_message rfl fun _ => rfl)
      (forall₂_enumsOf _ 4 raw.enums)
  · exact partsFrom_map (Descriptor.Element.kept_message rfl fun _ => rfl)
      (forall₂_extensionsOf extensionsMade)
  · refine partsFrom_nil ?_
    change raw.list number = []
    rw [Descriptor.Message.list] <;> assumption

private theorem partsFrom_enum (scope : Text) (raw : Descriptor.Enum) (number : Nat) :
    PartsFrom locations path (.enum raw) number
      ((Enum.ofDescriptor locations scope path raw).list number) := by
  unfold Enum.list
  split
  · refine partsFrom_map (Descriptor.Element.kept_values raw) ?_
    exact Result.forall₂_map_self fun _ _ => .enumValue rfl rfl rfl
  · refine partsFrom_nil ?_
    change raw.list number = []
    rw [Descriptor.Enum.list]
    assumption

private theorem partsFrom_service (scope : Text) (raw : Descriptor.Service) (number : Nat) :
    PartsFrom locations path (.service raw) number
      ((Service.ofDescriptor locations scope path raw).list number) := by
  unfold Service.list
  split
  · refine partsFrom_map (Descriptor.Element.kept_methods raw) ?_
    exact Result.forall₂_map_self fun _ _ => .method rfl rfl
  · refine partsFrom_nil ?_
    change raw.list number = []
    rw [Descriptor.Service.list]
    assumption

private theorem MadeFrom.parts (made : MadeFrom locations path origin element) (number : Nat) :
    PartsFrom locations path origin number (element.list number) := by
  cases made with
  | file same converted =>
    subst same
    exact partsFrom_file converted number
  | message converted => exact partsFrom_message converted number
  | enum scope raw => exact partsFrom_enum scope raw number
  | service scope raw => exact partsFrom_service scope raw number
  | field | extension | enumValue | method => exact partsFrom_nil rfl

private theorem MadeFrom.on_route (made : MadeFrom locations path origin element) {route : Route}
    {target : Element} (found : element.at? route = some target) :
    ∃ below rawTarget, origin.pathOf? route = some below ∧ origin.at? below = some rawTarget ∧
      MadeFrom locations (path ++ below) rawTarget target := by
  induction route generalizing path origin element with
  | nil =>
    obtain rfl := Option.some.inj found
    exact ⟨[], origin, rfl, rfl, by rwa [List.append_nil]⟩
  | cons step rest ih =>
    obtain ⟨number, index⟩ := step
    rw [at?] at found
    split at found
    · cases found
    · rename_i child inList
      obtain ⟨⟨rawChild, place⟩, kept, childMade⟩ := related_at (made.parts number).flip inList
      obtain ⟨below, rawTarget, pathFound, foundBelow, targetMade⟩ := ih childMade found
      refine ⟨(number : Int) :: (place : Int) :: below, rawTarget, ?_, ?_, ?_⟩
      · exact Descriptor.Element.pathOf?_cons_eq_some_iff.mpr
          ⟨rawChild, place, below, kept, pathFound, rfl⟩
      · simpa [Descriptor.Element.at?, Descriptor.Element.list_of_kept kept] using foundBelow
      · simpa [childPath] using targetMade

private theorem MadeFrom.exists_on_route (made : MadeFrom locations path origin element)
    {route : Route} {below : List Int} (found : origin.pathOf? route = some below) :
    ∃ target, element.at? route = some target := by
  induction route generalizing path origin element below with
  | nil => exact ⟨element, rfl⟩
  | cons step rest ih =>
    obtain ⟨number, index⟩ := step
    obtain ⟨rawChild, place, below, kept, foundBelow, rfl⟩ :=
      Descriptor.Element.pathOf?_cons_eq_some_iff.mp found
    obtain ⟨child, inList, childMade⟩ := related_at (made.parts number) kept
    obtain ⟨target, foundTarget⟩ := ih childMade foundBelow
    refine ⟨target, ?_⟩
    rw [at?, inList]
    exact foundTarget

end

end Element

private theorem MapEntry.FoldedFrom.comments_eq_nil {entry : Descriptor.Message}
    {map : MapEntry Field} (folded : map.FoldedFrom entry) {part : Field}
    (isPart : map.key = some part ∨ map.value = some part) : part.comments = [] := by
  obtain ⟨rawKey, -, key⟩ := folded.key
  obtain ⟨rawValue, -, value⟩ := folded.value
  rcases isPart with same | same
  · obtain rfl := Option.some.inj (key.symm.trans same)
    rfl
  · obtain rfl := Option.some.inj (value.symm.trans same)
    rfl

private theorem File.comments_of_mapPart {raw : Descriptor.File} {file : File}
    (converted : File.ofDescriptor raw = .ok file) {field : Field} (has : file.HasField field)
    {map : MapEntry Field} (isMap : field.map = some map) {part : Field}
    (isPart : map.key = some part ∨ map.value = some part) : part.comments = [] := by
  have plain (isPlain : field.IsPlain) : part.comments = [] := by
    cases isPlain.map.symm.trans isMap
  rcases has with extension | ⟨position, message, found, member⟩
  · exact plain (File.isPlain_extensions converted field extension)
  · obtain ⟨origin, -, folded⟩ := File.foldedFrom converted found
    rcases member with member | extension
    · obtain ⟨rawField, -, fieldFolded⟩ := Result.exists_of_mem_forall₂ folded.fields member
      obtain ⟨-, entry, -, mapFolded⟩ := fieldFolded.folded map isMap
      exact mapFolded.comments_eq_nil isPart
    · exact plain (folded.extensions field extension)

/-- Comments stand on their own elements. Every element of a converted file comes from the element
of the descriptor at its path and has the comment at this path; nothing that is kept is lost;
different elements have different paths, and different paths different keys; keys and values of maps
have no comments. -/
theorem comments_in_place {raw : Descriptor.File} {file : File}
    (converted : File.ofDescriptor raw = .ok file) :
    (∀ route element, (Element.file file).at? route = some element →
      ∃ path origin, (Descriptor.Element.file raw).pathOf? route = some path ∧
        (Descriptor.Element.file raw).at? path = some origin ∧ element.NamedAs origin ∧
        ∀ comment, element.comments? = some comment → IsCommentAt raw.locations path comment) ∧
    (∀ route path, (Descriptor.Element.file raw).pathOf? route = some path →
      ∃ element, (Element.file file).at? route = some element) ∧
    (∀ route route' path, (Descriptor.Element.file raw).pathOf? route = some path →
      (Descriptor.Element.file raw).pathOf? route' = some path → route = route') ∧
    Function.Injective pathKey ∧
    ∀ field, file.HasField field → ∀ map, field.map = some map →
      ∀ part, map.key = some part ∨ map.value = some part → part.comments = [] := by
  have made : Element.MadeFrom raw.locations [] (.file raw) (.file file) := .file rfl converted
  refine ⟨fun route element found => ?_, fun route path => made.exists_on_route,
    fun route route' path => Descriptor.Element.pathOf?_inj, pathKey_injective,
    fun field has map isMap part => File.comments_of_mapPart converted has isMap⟩
  obtain ⟨path, origin, pathFound, foundOrigin, elementMade⟩ := made.on_route found
  refine ⟨path, origin, pathFound, foundOrigin, elementMade.namedAs, fun comment stands => ?_⟩
  rw [elementMade.comments? stands]
  exact isCommentAt_commentAt raw.locations path

/-- A message after a map entry, with several comments. -/
def albumFile : Descriptor.File where
  name := "album.proto"
  messages := [{
    name := "Album"
    fields := [{
      name := "titles"
      number := 1
      label := 3
      type := some 11
      typeName := ".Album.TitlesEntry" }]
    nested := [
      { name := "TitlesEntry"
        fields := [{ name := "key", number := 1, type := some 9 },
          { name := "value", number := 2, type := some 9 }]
        mapEntry := true },
      { name := "Track" }] }]
  locations := [
    { path := [4, 0, 3, 1], leadingComments := "Old." },
    { path := [4, 0, 3, 1], leadingComments := " A track. " },
    { path := [4, 0, 3, 1], leadingComments := "  " },
    { path := [4, 0, 3, 0], leadingComments := "An entry." }]

theorem comments_in_place_albumFile :
    ∃ file track path, File.ofDescriptor albumFile = .ok file ∧
      (Element.file file).at? [(4, 0), (3, 0)] = some track ∧
      track.comments? = some (Text.ofString "A track.") ∧
      (Descriptor.Element.file albumFile).pathOf? [(4, 0), (3, 0)] = some path ∧
      path = [4, 0, 3, 1] ∧ IsCommentAt albumFile.locations path "A track." := by
  obtain ⟨onRoute, -⟩ := @comments_in_place albumFile _ rfl
  obtain ⟨path, origin, found, -, -, comment⟩ := onRoute [(4, 0), (3, 0)] _ rfl
  exact ⟨_, _, path, rfl, rfl, rfl, found, (Option.some.inj found).symm, comment _ rfl⟩

end Schema

end ProtoTypings
