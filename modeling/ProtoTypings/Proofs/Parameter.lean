import Mathlib.Data.List.Forall2
import Mathlib.Data.List.Induction
import ProtoTypings.Proofs.Result
import ProtoTypings.Request

set_option autoImplicit false
set_option relaxedAutoImplicit false

/-!
How a plugin parameter is read. Its parts are read as flags with values, though not all of them: a
part may be taken as the value of the flag before it, and a part of nothing but hyphens ends the
reading. Each reading makes an assignment or is refused, whatever has been set before, and among
assignments to one flag the last one counts. So a parameter is accepted exactly if all its readings
are and the values that are left in the end are known.
-/

namespace ProtoTypings

namespace ParameterFlag

private theorem mem_all (flag : ParameterFlag) : flag ∈ all := by
  cases flag <;> decide

theorem name_inj {flag other : ParameterFlag} (same : flag.name = other.name) : flag = other := by
  revert same
  cases flag <;> cases other <;> decide

private theorem ofName?_eq_some {written : Text} {flag : ParameterFlag} :
    ofName? written = some flag ↔
      flag.name = Text.replace Text.underscore Text.hyphen written := by
  constructor
  · intro found
    simpa using List.find?_some found
  · intro named
    cases found : ofName? written with
    | none =>
      have refused := List.find?_eq_none.mp found flag flag.mem_all
      simp [named] at refused
    | some other =>
      have otherNamed : other.name = Text.replace Text.underscore Text.hyphen written := by
        simpa using List.find?_some found
      rw [name_inj (otherNamed.trans named.symm)]

end ParameterFlag

abbrev Assignment := ParameterFlag × Text

namespace Options

/-- The parts of a parameter that are not blank, without the blanks around them and without the
hyphens in front. -/
def parts (parameter : Text) : List Text :=
  (((Text.split 44 parameter).map Blank.trim).filter fun part => part ≠ []).map
    fun part => part.dropWhile (· = Text.hyphen)

def dashed (part : Text) : Text := "--" ++ part

theorem arguments_eq (parameter : Text) : arguments parameter = (parts parameter).map dashed := by
  rw [arguments, parts, List.map_map]
  induction (Text.split 44 parameter).map Blank.trim with
  | nil => rfl
  | cons part rest ih =>
    by_cases blank : part = []
    · simp [blank, ih]
    · simp [blank, ih, dashed]

/-- The key of a part: what stands before the first equals sign, with underscores as hyphens. -/
def keyOf (part : Text) : Text :=
  Text.replace Text.underscore Text.hyphen (Text.cutAt Text.equals part).1

/-- What stands after the first equals sign of a part. -/
def valueOf? (part : Text) : Option Text := (Text.cutAt Text.equals part).2

def flagOf? (part : Text) : Option ParameterFlag :=
  ParameterFlag.ofName? (Text.cutAt Text.equals part).1

theorem flagOf?_eq_some {part : Text} {flag : ParameterFlag} :
    flagOf? part = some flag ↔ flag.name = keyOf part :=
  ParameterFlag.ofName?_eq_some

def Unknown (part : Text) : Prop := ∀ flag : ParameterFlag, flag.name ≠ keyOf part

theorem unknown_iff {part : Text} : Unknown part ↔ flagOf? part = none := by
  rw [Option.eq_none_iff_forall_ne_some]
  exact forall_congr' fun flag => not_congr flagOf?_eq_some.symm

/-- Whether a part is a text flag without a value of its own. -/
def takesNext (part : Text) : Bool :=
  (valueOf? part).isNone && (flagOf? part).any fun flag => !flag.isBoolean

theorem takesNext_eq {part : Text} {flag : ParameterFlag} (named : flagOf? part = some flag) :
    takesNext part = ((valueOf? part).isNone && !flag.isBoolean) := by
  simp [takesNext, named]

/-- A part that is read as a flag, and the value that it is given, if there is one. -/
structure Reading where
  part : Text
  value? : Option Text
  deriving DecidableEq, Repr

/-- The parts that are read as flags. A text flag without a value takes the part after it, and a
boolean flag means true; a part of nothing but hyphens ends the reading. -/
def readings : List Text → List Reading
  | [] => []
  | part :: rest =>
    if part = [] then []
    else if takesNext part then
      match rest with
      | [] => [⟨part, none⟩]
      | next :: rest => ⟨part, some (dashed next)⟩ :: readings rest
    else ⟨part, some ((valueOf? part).getD "true")⟩ :: readings rest

theorem parts_dashed (part : Text) :
    Flag.parts (dashed part) =
      if part.head? = some Text.hyphen || part.head? = some Text.equals then
        .error (.badFlag (dashed part))
      else .ok (Text.cutAt Text.equals part) := rfl

private theorem unknown_of_head {part : Text}
    (bad : (part.head? = some Text.hyphen || part.head? = some Text.equals) = true) :
    Unknown part := by
  cases part with
  | nil => cases bad
  | cons first rest =>
    simp only [List.head?_cons, Option.some.injEq, Bool.or_eq_true, decide_eq_true_eq] at bad
    rcases bad with rfl | rfl
    · have key : (keyOf (Text.hyphen :: rest)).head? = some Text.hyphen := by
        rw [keyOf, Text.cutAt]
        split <;> rfl
      intro flag named
      rw [← named] at key
      cases flag <;> exact absurd key (by decide)
    · have key : keyOf (Text.equals :: rest) = [] := rfl
      intro flag named
      rw [key] at named
      cases flag <;> exact absurd named (by decide)

/-- The flag that a part names, or why it is refused. -/
def flagIn (part : Text) : Except Fault ParameterFlag := do
  let (name, _) ← Flag.parts (dashed part)
  match ParameterFlag.ofName? name with
  | none => throw (if name = Text.ofString "help" then .helpRequested else .unknownFlag name)
  | some flag => return flag

private theorem flagIn_eq_ok {part : Text} {flag : ParameterFlag} :
    flagIn part = .ok flag ↔ flagOf? part = some flag := by
  rw [flagIn, parts_dashed]
  split
  · rename_i bad
    simp [unknown_iff.mp (unknown_of_head bad), bind, Except.bind]
  · simp only [bind, Except.bind, flagOf?]
    cases ParameterFlag.ofName? (Text.cutAt Text.equals part).1 with
    | none => simp
    | some other => simp [pure, Except.pure]

/-- An assignment that its flag takes: a boolean flag takes booleans only. -/
def Valid (assignment : Assignment) : Prop :=
  assignment.1.isBoolean = true → Numeral.boolean? assignment.2 ≠ none

/-- A value for a flag, which a boolean flag may refuse. -/
def assign (flag : ParameterFlag) (value : Text) : Except Fault Assignment :=
  if flag.isBoolean && (Numeral.boolean? value).isNone then
    .error (.badFlagValue ("--" ++ flag.name) value)
  else .ok (flag, value)

private theorem assign_eq_ok {flag : ParameterFlag} {value : Text} {assignment : Assignment} :
    assign flag value = .ok assignment ↔ assignment = (flag, value) ∧ Valid (flag, value) := by
  rw [assign]
  split
  · rename_i refused
    simp_all [Valid]
  · rename_i taken
    rw [Except.ok.injEq, eq_comm, iff_self_and]
    rintro -
    simpa [Valid] using taken

def Reading.effect (reading : Reading) : Except Fault Assignment := do
  let flag ← flagIn reading.part
  match reading.value? with
  | none => throw (.flagWithoutValue (dashed reading.part))
  | some value => assign flag value

/-- The assignment that a reading asks for, whether its flag takes the value or not. -/
def Reading.assignment? (reading : Reading) : Option Assignment := do
  return (← flagOf? reading.part, ← reading.value?)

theorem Reading.assignment?_eq_none {reading : Reading} :
    reading.assignment? = none ↔ Unknown reading.part ∨ reading.value? = none := by
  rw [assignment?, unknown_iff]
  cases flagOf? reading.part <;> cases reading.value? <;> simp

private theorem Reading.effect_eq_ok {reading : Reading} {assignment : Assignment} :
    reading.effect = .ok assignment ↔
      reading.assignment? = some assignment ∧ Valid assignment := by
  rw [effect, assignment?, Result.bind_eq_ok]
  simp only [flagIn_eq_ok]
  cases flagOf? reading.part with
  | none => simp
  | some flag =>
    cases reading.value? with
    | none => simp
    | some value =>
      change _ ↔ some (flag, value) = some assignment ∧ _
      simp only [assign_eq_ok, Option.some.injEq, exists_eq_left']
      constructor
      · rintro ⟨rfl, valid⟩
        exact ⟨rfl, valid⟩
      · rintro ⟨rfl, valid⟩
        exact ⟨rfl, valid⟩

def assignments (parts : List Text) : List Assignment :=
  (readings parts).filterMap Reading.assignment?

theorem mapM_effect_eq_ok {readings : List Reading} {all : List Assignment} :
    readings.mapM Reading.effect = .ok all ↔
      (∀ reading ∈ readings, reading.assignment? ≠ none) ∧ (∀ assignment ∈ all, Valid assignment) ∧
        all = readings.filterMap Reading.assignment? := by
  induction readings generalizing all with
  | nil =>
    rw [List.mapM_nil, Result.pure_eq_ok, List.filterMap_nil]
    constructor
    · rintro rfl
      exact ⟨List.forall_mem_nil _, List.forall_mem_nil _, rfl⟩
    · rintro ⟨-, -, rfl⟩
      rfl
  | cons reading rest ih =>
    simp only [List.mapM_cons, Result.bind_eq_ok, Result.pure_eq_ok, ih, Reading.effect_eq_ok,
      List.forall_mem_cons]
    constructor
    · rintro ⟨assignment, ⟨asked, valid⟩, more, ⟨moreAsked, moreValid, rfl⟩, rfl⟩
      rw [List.filterMap_cons_some asked]
      exact ⟨⟨by simp [asked], moreAsked⟩, List.forall_mem_cons.mpr ⟨valid, moreValid⟩, rfl⟩
    · rintro ⟨⟨asks, moreAsked⟩, valid, rfl⟩
      obtain ⟨assignment, asked⟩ := Option.ne_none_iff_exists'.mp asks
      rw [List.filterMap_cons_some asked] at valid ⊢
      obtain ⟨ownValid, moreValid⟩ := List.forall_mem_cons.mp valid
      exact ⟨assignment, ⟨asked, ownValid⟩, _, ⟨moreAsked, moreValid, rfl⟩, rfl⟩

def lastValue? (flag : ParameterFlag) (all : List Assignment) : Option Text :=
  (all.filter fun assignment => assignment.1 = flag).getLast?.map Prod.snd

private theorem lastValue?_concat (flag : ParameterFlag) (all : List Assignment)
    (assignment : Assignment) : lastValue? flag (all ++ [assignment]) =
      if assignment.1 = flag then some assignment.2 else lastValue? flag all := by
  by_cases same : assignment.1 = flag <;> simp [lastValue?, List.filter_append, same]

def lastBoolean? (flag : ParameterFlag) (all : List Assignment) : Option Bool :=
  (lastValue? flag all).bind Numeral.boolean?

end Options

namespace WrittenOptions

open Options

/-- The options after an assignment; a text that is no boolean changes nothing. -/
def put (written : WrittenOptions) : Assignment → WrittenOptions
  | (.mode, value) => { written with mode := value }
  | (.importStyle, value) => { written with importStyle := value }
  | (.reserved, value) => { written with reserved := value }
  | (.grpcJs, value) =>
    { written with grpcJs := (Numeral.boolean? value).getD written.grpcJs }
  | (.comments, value) =>
    { written with comments := (Numeral.boolean? value).getD written.comments }
  | (.parallel, value) =>
    { written with parallel := (Numeral.boolean? value).getD written.parallel }

private theorem set_eq (written : WrittenOptions) (flag : ParameterFlag) (value : Text) :
    written.set flag value = (assign flag value).map written.put := by
  cases flag with
  | mode | importStyle | reserved => rfl
  | grpcJs | comments | parallel =>
    simp only [set, assign, Flag.boolean, ParameterFlag.isBoolean, Bool.true_and]
    cases valid : Numeral.boolean? value <;> simp [Except.map, put, valid]

private theorem length_dashed {part : Text} (nonempty : part ≠ []) : ¬(dashed part).length ≤ 2 := by
  have positive := List.length_pos_iff.mpr nonempty
  have hyphens : (Text.ofString "--").length = 2 := rfl
  rw [dashed, List.length_append, hyphens]
  omega

private theorem setAll_dashed (written : WrittenOptions) {part : Text} (nonempty : part ≠ [])
    (rest : List Text) :
    written.setAll (dashed part :: rest) = flagIn part >>= fun flag =>
      match valueOf? part with
      | some value => written.set flag value >>= (setAll · rest)
      | none =>
        if flag.isBoolean then written.set flag "true" >>= (setAll · rest)
        else match rest with
          | [] => .error (.flagWithoutValue (dashed part))
          | next :: rest => written.set flag next >>= (setAll · rest) := by
  rw [setAll, if_neg (length_dashed nonempty), flagIn, parts_dashed]
  split
  · rfl
  · simp only [bind, Except.bind]
    cases ParameterFlag.ofName? (Text.cutAt Text.equals part).1 with
    | none => rfl
    | some flag =>
      simp only [valueOf?, pure, Except.pure]
      cases (Text.cutAt Text.equals part).2 with
      | some value => rfl
      | none => cases rest <;> rfl

private theorem set_bind (written : WrittenOptions) (flag : ParameterFlag) (value : Text)
    (next : WrittenOptions → Except Fault WrittenOptions) :
    (written.set flag value >>= next) =
      assign flag value >>= fun assignment => next (written.put assignment) := by
  rw [set_eq]
  cases assign flag value <;> rfl

private theorem map_mapM_cons (written : WrittenOptions) (reading : Reading) (rest : List Reading) :
    ((reading :: rest).mapM Reading.effect).map (fun all => all.foldl put written) =
      reading.effect >>= fun assignment =>
        (rest.mapM Reading.effect).map fun all => all.foldl put (written.put assignment) := by
  rw [List.mapM_cons]
  cases reading.effect with
  | error fault => rfl
  | ok assignment => cases rest.mapM Reading.effect <;> rfl

/-- Setting all flags of an argument list is reading its parts, which does not depend on the options
before, and then putting the assignments into them one after the other. -/
theorem setAll_eq (written : WrittenOptions) (parts : List Text) :
    written.setAll (parts.map dashed) =
      ((readings parts).mapM Reading.effect).map fun all => all.foldl put written := by
  fun_induction readings parts generalizing written with
  | case1 => rfl
  | case2 rest =>
    rw [List.map_cons, setAll, if_pos (by decide)]
    rfl
  | case3 part nonempty lone =>
    rw [List.map_cons, setAll_dashed written nonempty, map_mapM_cons, Reading.effect]
    cases found : flagIn part with
    | error fault => rfl
    | ok flag =>
      obtain ⟨noValue, text⟩ : valueOf? part = none ∧ flag.isBoolean = false := by
        simpa [takesNext_eq (flagIn_eq_ok.mp found)] using lone
      simp only [Result.ok_bind, noValue, text]
      rfl
  | case4 part nonempty lone next rest ih =>
    rw [List.map_cons, setAll_dashed written nonempty, map_mapM_cons, Reading.effect]
    cases found : flagIn part with
    | error fault => rfl
    | ok flag =>
      obtain ⟨noValue, text⟩ : valueOf? part = none ∧ flag.isBoolean = false := by
        simpa [takesNext_eq (flagIn_eq_ok.mp found)] using lone
      -- the next part is taken with its hyphens and is not read as a flag itself
      simp only [Result.ok_bind, noValue, text, Bool.false_eq_true, ↓reduceIte, List.map_cons,
        set_bind, ih]
  | case5 part rest nonempty own ih =>
    rw [List.map_cons, setAll_dashed written nonempty, map_mapM_cons, Reading.effect]
    cases found : flagIn part with
    | error fault => rfl
    | ok flag =>
      cases given : valueOf? part with
      | some value => simp only [Result.ok_bind, set_bind, ih, Option.getD_some]
      | none =>
        have boolean : flag.isBoolean = true := by
          simpa [takesNext_eq (flagIn_eq_ok.mp found), given] using own
        simp only [Result.ok_bind, boolean, ↓reduceIte, set_bind, ih, Option.getD_none]

/-- The options after some assignments: each is what it was last assigned, if it was. -/
def settle (written : WrittenOptions) (all : List Assignment) : WrittenOptions where
  mode := (lastValue? .mode all).getD written.mode
  grpcJs := (lastBoolean? .grpcJs all).getD written.grpcJs
  importStyle := (lastValue? .importStyle all).getD written.importStyle
  reserved := (lastValue? .reserved all).getD written.reserved
  comments := (lastBoolean? .comments all).getD written.comments
  parallel := (lastBoolean? .parallel all).getD written.parallel

private theorem put_settle (written : WrittenOptions) (all : List Assignment)
    {assignment : Assignment} (valid : Valid assignment) :
    (written.settle all).put assignment = written.settle (all ++ [assignment]) := by
  obtain ⟨flag, value⟩ := assignment
  cases flag with
  | mode | importStyle | reserved => simp [settle, put, lastBoolean?, lastValue?_concat]
  | grpcJs | comments | parallel =>
    obtain ⟨b, boolean⟩ := Option.ne_none_iff_exists'.mp (valid rfl)
    simp [settle, put, lastBoolean?, lastValue?_concat, boolean]

theorem foldl_put (written : WrittenOptions) {all : List Assignment}
    (valid : ∀ assignment ∈ all, Valid assignment) :
    all.foldl put written = written.settle all := by
  -- from the right, since it is the last assignment that decides
  induction all using List.reverseRecOn with
  | nil => rfl
  | append_singleton all assignment ih =>
    have before := ih fun earlier member => valid earlier (List.mem_append_left _ member)
    have last := valid assignment (List.mem_append_right _ List.mem_cons_self)
    rw [List.foldl_append, before, List.foldl_cons, List.foldl_nil, put_settle written all last]

/-- The mode in force: the short flag wins over the mode that is written. -/
def modeInForce (written : WrittenOptions) : Text :=
  if written.grpcJs then jsMode else written.mode

def modes : List Text := jsMode :: nativeModes

theorem usesJs_eq (written : WrittenOptions) :
    written.usesJs =
      if written.modeInForce = jsMode then .ok true
      else if nativeModes.contains written.modeInForce then .ok false
      else .error (.unknownMode written.modeInForce) := rfl

private theorem usesJs_eq_ok {written : WrittenOptions} {js : Bool} :
    written.usesJs = .ok js ↔
      written.modeInForce ∈ modes ∧ (js = true ↔ written.modeInForce = jsMode) := by
  rw [usesJs_eq, modes, List.mem_cons]
  by_cases isJs : written.modeInForce = jsMode
  · simp [isJs, eq_comm]
  · by_cases native : written.modeInForce ∈ nativeModes
    · simp [isJs, native, eq_comm]
    · simp [isJs, native]

theorem checked_eq_ok {written : WrittenOptions} {options : Options} :
    written.checked = .ok options ↔
      written.modeInForce ∈ modes ∧ (options.grpcJs = true ↔ written.modeInForce = jsMode) ∧
        ImportStyle.ofText? written.importStyle = some options.importStyle ∧
        ReservedPolicy.ofText? written.reserved = some options.reserved ∧
        options.comments = written.comments ∧ options.parallel = written.parallel := by
  have refused {α : Type} (fault : Fault) (next : α → Except Fault Options) :
      (throw fault >>= next) ≠ .ok options := by
    intro passed
    cases passed
  rw [checked, Result.bind_eq_ok]
  cases ImportStyle.ofText? written.importStyle with
  | none => simp only [refused, reduceCtorEq, and_false, false_and, exists_false]
  | some style =>
    cases ReservedPolicy.ofText? written.reserved with
    | none => simp only [pure_bind, refused, reduceCtorEq, and_false, false_and, exists_false]
    | some policy =>
      simp only [pure_bind, Result.pure_eq_ok, usesJs_eq_ok, Option.some.injEq]
      constructor
      · rintro ⟨js, ⟨known, isJs⟩, rfl⟩
        exact ⟨known, isJs, rfl, rfl, rfl, rfl⟩
      · rintro ⟨known, isJs, rfl, rfl, comments, parallel⟩
        exact ⟨options.grpcJs, ⟨known, isJs⟩, by rw [← comments, ← parallel]⟩

/-- Options whose mode, import style and reserved word policy are known ones. -/
def Known (written : WrittenOptions) : Prop :=
  written.modeInForce ∈ modes ∧ ImportStyle.ofText? written.importStyle ≠ none ∧
    ReservedPolicy.ofText? written.reserved ≠ none

theorem exists_checked_iff {written : WrittenOptions} :
    (∃ options, written.checked = .ok options) ↔ written.Known := by
  constructor
  · rintro ⟨options, passed⟩
    obtain ⟨mode, -, style, policy, -, -⟩ := checked_eq_ok.mp passed
    exact ⟨mode, by simp [style], by simp [policy]⟩
  · rintro ⟨mode, style, policy⟩
    obtain ⟨importStyle, style⟩ := Option.ne_none_iff_exists'.mp style
    obtain ⟨reserved, policy⟩ := Option.ne_none_iff_exists'.mp policy
    exact ⟨⟨written.modeInForce = jsMode, importStyle, reserved, written.comments,
      written.parallel⟩, checked_eq_ok.mpr ⟨mode, by simp, style, policy, rfl, rfl⟩⟩

end WrittenOptions

namespace Environment

/-- Where the switches of an environment are set, they are booleans. -/
def Readable (environment : Environment) : Prop :=
  ∀ setting ∈ [Setting.comments, Setting.parallel], ∀ value,
    environment.setting? setting = some value → Numeral.boolean? value ≠ none

def isOn (environment : Environment) (setting : Setting) : Bool :=
  ((environment.setting? setting).bind Numeral.boolean?).getD false

private theorem boolean_eq_ok {environment : Environment} {setting : Setting} {b : Bool} :
    environment.boolean setting = .ok b ↔
      (∀ value, environment.setting? setting = some value → Numeral.boolean? value ≠ none) ∧
        b = environment.isOn setting := by
  rw [boolean, isOn]
  cases environment.setting? setting with
  | none => simp [eq_comm]
  | some value => cases boolean : Numeral.boolean? value <;> simp [boolean, eq_comm]

end Environment

namespace WrittenOptions

def defaults (environment : Environment) : WrittenOptions where
  mode := environment.text .mode "grpc-node"
  importStyle := environment.text .importStyle "root"
  reserved := environment.text .reserved "prefix"
  comments := environment.isOn .comments
  parallel := environment.isOn .parallel

private theorem ofEnvironment_eq_ok {environment : Environment} {written : WrittenOptions} :
    ofEnvironment environment = .ok written ↔
      environment.Readable ∧ written = defaults environment := by
  simp only [ofEnvironment, Result.located_eq_ok, Result.bind_eq_ok, Environment.boolean_eq_ok,
    Result.pure_eq_ok, Environment.Readable, List.forall_mem_cons]
  constructor
  · rintro ⟨_, ⟨comments, rfl⟩, _, ⟨parallel, rfl⟩, rfl⟩
    exact ⟨⟨comments, parallel, List.forall_mem_nil _⟩, rfl⟩
  · rintro ⟨⟨comments, parallel, -⟩, rfl⟩
    exact ⟨_, ⟨comments, rfl⟩, _, ⟨parallel, rfl⟩, rfl⟩

end WrittenOptions

namespace Options

open WrittenOptions (defaults)

theorem ofParameter_of_readable {environment : Environment} (readable : environment.Readable)
    (parameter : Text) :
    ofParameter environment parameter = (readings (parts parameter)).mapM Reading.effect >>=
      fun all => (all.foldl WrittenOptions.put (defaults environment)).checked := by
  rw [ofParameter, WrittenOptions.ofEnvironment_eq_ok.mpr ⟨readable, rfl⟩, Result.ok_bind,
    arguments_eq, WrittenOptions.setAll_eq]
  cases (readings (parts parameter)).mapM Reading.effect <;> rfl

/-- A parameter is accepted exactly if the environment can be read, every reading names a flag and
has a value, the flags take their values and the options after that pass the check. -/
theorem ofParameter_eq_ok {environment : Environment} {parameter : Text} {options : Options} :
    ofParameter environment parameter = .ok options ↔
      environment.Readable ∧
      (∀ reading ∈ readings (parts parameter), reading.assignment? ≠ none) ∧
      (∀ assignment ∈ assignments (parts parameter), Valid assignment) ∧
      ((defaults environment).settle (assignments (parts parameter))).checked = .ok options := by
  by_cases readable : environment.Readable
  · simp only [ofParameter_of_readable readable, Result.bind_eq_ok, mapM_effect_eq_ok, readable,
      true_and]
    constructor
    · rintro ⟨_, ⟨asked, valid, rfl⟩, passed⟩
      rw [WrittenOptions.foldl_put _ valid] at passed
      exact ⟨asked, valid, passed⟩
    · rintro ⟨asked, valid, passed⟩
      refine ⟨_, ⟨asked, valid, rfl⟩, ?_⟩
      rwa [WrittenOptions.foldl_put _ valid]
  · simp [ofParameter, Result.bind_eq_ok, WrittenOptions.ofEnvironment_eq_ok, readable]

/-- A part that is read as a flag by itself: there is more than hyphens, and no value is missing. -/
def SelfContained (part : Text) : Prop := part ≠ [] ∧ takesNext part = false

/-- The reading of a self-contained part; without a value the flag means true. -/
def Reading.ofPart (part : Text) : Reading := ⟨part, some ((valueOf? part).getD "true")⟩

theorem readings_of_selfContained {parts : List Text}
    (selfContained : ∀ part ∈ parts, SelfContained part) :
    readings parts = parts.map Reading.ofPart := by
  fun_induction readings parts with
  | case1 => rfl
  | case2 rest => exact absurd rfl (selfContained [] List.mem_cons_self).1
  | case3 part _ lone =>
    exact absurd lone (by simp [(selfContained part List.mem_cons_self).2])
  | case4 part _ lone next rest =>
    exact absurd lone (by simp [(selfContained part List.mem_cons_self).2])
  | case5 part rest _ _ ih =>
    rw [ih fun other member => selfContained other (List.mem_cons_of_mem part member)]
    rfl

end Options

end ProtoTypings
