import ProtoTypings.Proofs.Parameter

set_option autoImplicit false
set_option relaxedAutoImplicit false

/-!
Where the options of a run come from, if the parameter is made of keys that exist: from the last part
with their key, else from the variable with the program's name in front, else from the bare variable,
else there is a default. Keys and variables are given here by their names. What the environment says
about an option that the parameter sets does not matter, nor does the order of parts with different
keys.
-/

namespace ProtoTypings

namespace Numeral

def trueSpellings : List Text := ["1", "t", "T", "TRUE", "true", "True"]

def falseSpellings : List Text := ["0", "f", "F", "FALSE", "false", "False"]

def spellsBoolean (value : Text) : Bool :=
  trueSpellings.contains value || falseSpellings.contains value

def meansTrue (value? : Option Text) : Bool := value?.any trueSpellings.contains

private theorem boolean?_eq (value : Text) :
    boolean? value =
      if trueSpellings.contains value then some true
      else if falseSpellings.contains value then some false else none :=
  if_congr List.contains_iff_mem.symm rfl (if_congr List.contains_iff_mem.symm rfl rfl)

private theorem getD_boolean? (value : Text) :
    (boolean? value).getD false = trueSpellings.contains value := by
  rw [boolean?_eq]
  cases trueSpellings.contains value with
  | true => rfl
  | false => cases falseSpellings.contains value <;> rfl

private theorem boolean?_ne_none_iff {value : Text} :
    boolean? value ≠ none ↔ spellsBoolean value = true := by
  rw [boolean?_eq, spellsBoolean]
  cases trueSpellings.contains value with
  | true => simp
  | false => cases falseSpellings.contains value <;> simp

private theorem getD_bind_boolean? (value? : Option Text) :
    (value?.bind boolean?).getD false = meansTrue value? := by
  cases value? with
  | none => rfl
  | some value => exact getD_boolean? value

end Numeral

open Numeral (meansTrue spellsBoolean)

namespace Environment

def either? (environment : Environment) (own bare : Text) : Option Text :=
  (environment own).or (environment bare)

/-- Where the variables for comments and for parallel work are set, they are booleans. -/
structure Legible (environment : Environment) : Prop where
  comments : ∀ value, environment.either? "PROTOC_GEN_TSD_COMMENTS" "COMMENTS" = some value →
    spellsBoolean value = true
  parallel : ∀ value, environment.either? "PROTOC_GEN_TSD_PARALLEL" "PARALLEL" = some value →
    spellsBoolean value = true

private theorem Legible.readable {environment : Environment} (legible : environment.Legible) :
    environment.Readable := by
  intro setting switch value set
  rw [Numeral.boolean?_ne_none_iff]
  rcases List.mem_pair.mp switch with rfl | rfl
  · exact legible.comments value set
  · exact legible.parallel value set

private theorem isOn_eq (environment : Environment) (setting : Setting) :
    environment.isOn setting = meansTrue (environment.setting? setting) :=
  Numeral.getD_bind_boolean? _

end Environment

namespace WrittenOptions

private theorem checked_congr {written written' : WrittenOptions}
    (mode : written.modeInForce = written'.modeInForce)
    (importStyle : written.importStyle = written'.importStyle)
    (reserved : written.reserved = written'.reserved)
    (comments : written.comments = written'.comments)
    (parallel : written.parallel = written'.parallel) : written.checked = written'.checked := by
  have js : written.usesJs = written'.usesJs := by
    rw [usesJs_eq, usesJs_eq, mode]
  rw [checked, checked, js, importStyle, reserved, comments, parallel]

end WrittenOptions

namespace Options

open WrittenOptions (defaults)

/-- The keys that take any text. -/
def textKeys : List Text := ["mode", "import-style", "reserved"]

/-- The keys that take booleans and may stand alone. -/
def switchKeys : List Text := ["grpc-js", "comments", "parallel"]

/-- A part that is a key with a value, or a key that may stand alone. -/
def WellFormed (part : Text) : Prop :=
  keyOf part ∈ textKeys ∧ valueOf? part ≠ none ∨ keyOf part ∈ switchKeys

private theorem wellFormed_iff {part : Text} : WellFormed part ↔
    (textKeys.contains (keyOf part) && (valueOf? part).isSome ||
      switchKeys.contains (keyOf part)) = true := by
  simp only [WellFormed, Bool.or_eq_true, Bool.and_eq_true, List.contains_iff_mem,
    Option.isSome_iff_ne_none]

instance (part : Text) : Decidable (WellFormed part) := decidable_of_iff _ wellFormed_iff.symm

/-- The keys and values that a parameter gives, part by part. A key alone is given `true`. -/
def given (parameter : Text) : List (Text × Text) :=
  (parts parameter).map fun part => (keyOf part, (valueOf? part).getD "true")

def lastGiven? (key parameter : Text) : Option Text :=
  ((given parameter).filter fun pair => pair.1 = key).getLast?.map Prod.snd

private theorem name_mem_switchKeys {flag : ParameterFlag} :
    flag.name ∈ switchKeys ↔ flag.isBoolean = true := by
  cases flag <;> decide

private theorem exists_name_eq {key : Text} (known : key ∈ textKeys ∨ key ∈ switchKeys) :
    ∃ flag : ParameterFlag, flag.name = key := by
  simp only [textKeys, switchKeys, List.mem_cons, List.not_mem_nil, or_false] at known
  rcases known with (rfl | rfl | rfl) | rfl | rfl | rfl
  · exact ⟨.mode, rfl⟩
  · exact ⟨.importStyle, rfl⟩
  · exact ⟨.reserved, rfl⟩
  · exact ⟨.grpcJs, rfl⟩
  · exact ⟨.comments, rfl⟩
  · exact ⟨.parallel, rfl⟩

private theorem WellFormed.flag {part : Text} (wellFormed : WellFormed part) :
    ∃ flag, flagOf? part = some flag ∧ (valueOf? part ≠ none ∨ flag.isBoolean = true) := by
  obtain ⟨flag, named⟩ := exists_name_eq (wellFormed.imp_left And.left)
  refine ⟨flag, flagOf?_eq_some.mpr named, wellFormed.imp And.right fun switch => ?_⟩
  rwa [← named, name_mem_switchKeys] at switch

private theorem WellFormed.selfContained {part : Text} (wellFormed : WellFormed part) :
    SelfContained part := by
  obtain ⟨flag, named, complete⟩ := wellFormed.flag
  constructor
  · rintro rfl
    cases named
  · rw [takesNext_eq named]
    rcases complete with valued | boolean
    · simp [valued]
    · simp [boolean]

section

variable {environment environment' : Environment} {parameter parameter' : Text} {options : Options}

private theorem readings_of_wellFormed (wellFormed : ∀ part ∈ parts parameter, WellFormed part) :
    readings (parts parameter) = (parts parameter).map Reading.ofPart :=
  readings_of_selfContained fun part member => (wellFormed part member).selfContained

private theorem given_eq (wellFormed : ∀ part ∈ parts parameter, WellFormed part) :
    given parameter = (assignments (parts parameter)).map fun made => (made.1.name, made.2) := by
  rw [assignments, readings_of_wellFormed wellFormed, List.filterMap_map, List.map_filterMap, given,
    ← List.filterMap_eq_map]
  refine List.filterMap_congr fun part member => ?_
  obtain ⟨flag, named, -⟩ := (wellFormed part member).flag
  simp [Reading.assignment?, Reading.ofPart, named, flagOf?_eq_some.mp named]

private theorem lastGiven?_name (wellFormed : ∀ part ∈ parts parameter, WellFormed part)
    (flag : ParameterFlag) :
    lastGiven? flag.name parameter = lastValue? flag (assignments (parts parameter)) := by
  have same : (fun made : Assignment => decide (made.1.name = flag.name)) =
      fun made => decide (made.1 = flag) := by
    funext made
    exact decide_eq_decide.mpr ⟨ParameterFlag.name_inj, congrArg _⟩
  rw [lastGiven?, given_eq wellFormed, List.filter_map, List.getLast?_map, Option.map_map]
  change ((assignments (parts parameter)).filter fun made =>
    decide (made.1.name = flag.name)).getLast?.map Prod.snd = _
  rw [same, lastValue?]

private theorem ofParameter_eq_ok_of_wellFormed (legible : environment.Legible)
    (wellFormed : ∀ part ∈ parts parameter, WellFormed part) :
    ofParameter environment parameter = .ok options ↔
      (∀ made ∈ assignments (parts parameter), Valid made) ∧
        ((defaults environment).settle (assignments (parts parameter))).checked = .ok options := by
  rw [ofParameter_eq_ok]
  refine ⟨fun accepted => accepted.2.2, fun accepted => ⟨legible.readable, ?_, accepted⟩⟩
  intro reading member asksNothing
  rw [readings_of_wellFormed wellFormed] at member
  obtain ⟨part, partMember, rfl⟩ := List.mem_map.mp member
  obtain ⟨flag, named, -⟩ := (wellFormed part partMember).flag
  simp [Reading.assignment?, Reading.ofPart, named] at asksNothing

private theorem exists_refused_iff (wellFormed : ∀ part ∈ parts parameter, WellFormed part) :
    (∃ pair ∈ given parameter, pair.1 ∈ switchKeys ∧ spellsBoolean pair.2 = false) ↔
      ¬∀ made ∈ assignments (parts parameter), Valid made := by
  have refused (made : Assignment) :
      made.1.name ∈ switchKeys ∧ spellsBoolean made.2 = false ↔ ¬Valid made := by
    rw [Valid, Numeral.boolean?_ne_none_iff, name_mem_switchKeys, Classical.not_imp,
      Bool.not_eq_true]
  rw [given_eq wellFormed]
  simp only [List.mem_map, exists_exists_and_eq_and, refused, not_forall, exists_prop]

private theorem getD_lastBoolean? {flag : ParameterFlag} {all : List Assignment}
    (valid : ∀ made ∈ all, Valid made) (boolean : flag.isBoolean = true) (otherwise : Option Text) :
    (lastBoolean? flag all).getD (meansTrue otherwise) =
      meansTrue ((lastValue? flag all).or otherwise) := by
  rw [lastBoolean?]
  cases last : lastValue? flag all with
  | none => rfl
  | some value =>
    have taken : Numeral.boolean? value ≠ none := by
      obtain ⟨⟨_, _⟩, found, rfl⟩ := Option.map_eq_some_iff.mp last
      obtain ⟨member, same⟩ := List.mem_filter.mp (List.mem_of_getLast? found)
      obtain rfl := of_decide_eq_true same
      exact valid _ member boolean
    obtain ⟨b, spelled⟩ := Option.ne_none_iff_exists'.mp taken
    calc ((some value).bind Numeral.boolean?).getD (meansTrue otherwise)
        = (Numeral.boolean? value).getD false := by rw [Option.bind_some, spelled]; rfl
      _ = meansTrue ((some value).or otherwise) := Numeral.getD_boolean? value

end

/-- The options as a parameter and an environment write them. Each is what the last part with its
key gives, else what the variable with the program's name in front says, else what the bare variable
says, else a default. -/
def inForce (environment : Environment) (parameter : Text) : WrittenOptions where
  mode := ((lastGiven? "mode" parameter).or
    (environment.either? "PROTOC_GEN_TSD_MODE" "MODE")).getD "grpc-node"
  grpcJs := meansTrue (lastGiven? "grpc-js" parameter)
  importStyle := ((lastGiven? "import-style" parameter).or
    (environment.either? "PROTOC_GEN_TSD_IMPORT_STYLE" "IMPORT_STYLE")).getD "root"
  reserved := ((lastGiven? "reserved" parameter).or
    (environment.either? "PROTOC_GEN_TSD_RESERVED" "RESERVED")).getD "prefix"
  comments := meansTrue ((lastGiven? "comments" parameter).or
    (environment.either? "PROTOC_GEN_TSD_COMMENTS" "COMMENTS"))
  parallel := meansTrue ((lastGiven? "parallel" parameter).or
    (environment.either? "PROTOC_GEN_TSD_PARALLEL" "PARALLEL"))

/-- Environments that agree on what a parameter leaves to them. -/
structure AgreeOnRest (parameter : Text) (environment environment' : Environment) : Prop where
  mode : lastGiven? "mode" parameter = none → meansTrue (lastGiven? "grpc-js" parameter) = false →
    environment.either? "PROTOC_GEN_TSD_MODE" "MODE" =
      environment'.either? "PROTOC_GEN_TSD_MODE" "MODE"
  importStyle : lastGiven? "import-style" parameter = none →
    environment.either? "PROTOC_GEN_TSD_IMPORT_STYLE" "IMPORT_STYLE" =
      environment'.either? "PROTOC_GEN_TSD_IMPORT_STYLE" "IMPORT_STYLE"
  reserved : lastGiven? "reserved" parameter = none →
    environment.either? "PROTOC_GEN_TSD_RESERVED" "RESERVED" =
      environment'.either? "PROTOC_GEN_TSD_RESERVED" "RESERVED"
  comments : lastGiven? "comments" parameter = none →
    environment.either? "PROTOC_GEN_TSD_COMMENTS" "COMMENTS" =
      environment'.either? "PROTOC_GEN_TSD_COMMENTS" "COMMENTS"
  parallel : lastGiven? "parallel" parameter = none →
    environment.either? "PROTOC_GEN_TSD_PARALLEL" "PARALLEL" =
      environment'.either? "PROTOC_GEN_TSD_PARALLEL" "PARALLEL"

/-- Parameters in which every key is given the same values in the same order. -/
def SameByKey (parameter parameter' : Text) : Prop :=
  ∀ key : Text, ((given parameter).filter fun pair => pair.1 = key) =
    (given parameter').filter fun pair => pair.1 = key

section

variable {environment environment' : Environment} {parameter parameter' : Text} {options : Options}

private theorem or_congr_rest {α : Type} {last? other? other'? : Option α}
    (agree : last? = none → other? = other'?) : last?.or other? = last?.or other'? := by
  cases last? with
  | none => exact agree rfl
  | some value => rfl

private theorem settle_eq (environment : Environment)
    (wellFormed : ∀ part ∈ parts parameter, WellFormed part)
    (valid : ∀ made ∈ assignments (parts parameter), Valid made) :
    (defaults environment).settle (assignments (parts parameter)) =
      inForce environment parameter := by
  have text (flag : ParameterFlag) (setting : Setting) (otherwise : Text) :
      (lastValue? flag (assignments (parts parameter))).getD
          (environment.text setting otherwise) =
        ((lastGiven? flag.name parameter).or (environment.setting? setting)).getD otherwise := by
    rw [lastGiven?_name wellFormed, Option.getD_or, Environment.text]
  have switch (flag : ParameterFlag) (boolean : flag.isBoolean = true) (other? : Option Text) :
      (lastBoolean? flag (assignments (parts parameter))).getD (meansTrue other?) =
        meansTrue ((lastGiven? flag.name parameter).or other?) := by
    rw [lastGiven?_name wellFormed, getD_lastBoolean? valid boolean]
  have js : (lastBoolean? .grpcJs (assignments (parts parameter))).getD false =
      meansTrue (lastGiven? "grpc-js" parameter) := by
    rw [← Option.or_none (o := lastGiven? "grpc-js" parameter)]
    exact switch .grpcJs rfl none
  rw [WrittenOptions.settle]
  dsimp only [defaults]
  rw [js, text, text, text, environment.isOn_eq, environment.isOn_eq, switch .comments rfl,
    switch .parallel rfl]
  rfl

/-- With environments that agree on what is left to them, the check says the same. The mode need not
be the same if the short key wins over it. -/
private theorem AgreeOnRest.checked (agree : AgreeOnRest parameter environment environment') :
    (inForce environment parameter).checked = (inForce environment' parameter).checked := by
  apply WrittenOptions.checked_congr
  · refine ite_congr rfl (fun _ => rfl) fun noJs => congrArg (Option.getD · _) ?_
    exact or_congr_rest fun unset => agree.mode unset (Bool.eq_false_iff.mpr noJs)
  · exact congrArg (Option.getD · _) (or_congr_rest agree.importStyle)
  · exact congrArg (Option.getD · _) (or_congr_rest agree.reserved)
  · exact congrArg meansTrue (or_congr_rest agree.comments)
  · exact congrArg meansTrue (or_congr_rest agree.parallel)

private theorem AgreeOnRest.ofParameter (agree : AgreeOnRest parameter environment environment')
    (legible : environment.Legible) (legible' : environment'.Legible)
    (wellFormed : ∀ part ∈ parts parameter, WellFormed part) :
    Options.ofParameter environment parameter = Options.ofParameter environment' parameter := by
  -- the readings are refused or not whatever the environment is, so only the check is to compare
  rw [ofParameter_of_readable legible.readable, ofParameter_of_readable legible'.readable]
  cases effects : (readings (parts parameter)).mapM Reading.effect with
  | error fault => rfl
  | ok all =>
    obtain ⟨-, valid, rfl⟩ := mapM_effect_eq_ok.mp effects
    rw [Result.ok_bind, Result.ok_bind, WrittenOptions.foldl_put _ valid,
      WrittenOptions.foldl_put _ valid]
    change ((defaults environment).settle (assignments (parts parameter))).checked =
      ((defaults environment').settle (assignments (parts parameter))).checked
    rw [settle_eq environment wellFormed valid, settle_eq environment' wellFormed valid,
      agree.checked]

private theorem SameByKey.inForce_eq (same : SameByKey parameter parameter') :
    inForce environment parameter = inForce environment parameter' := by
  have last (key : Text) : lastGiven? key parameter = lastGiven? key parameter' := by
    rw [lastGiven?, lastGiven?, same key]
  simp only [inForce, last]

private theorem SameByKey.mem_iff (same : SameByKey parameter parameter') {pair : Text × Text} :
    pair ∈ given parameter ↔ pair ∈ given parameter' := by
  have own : pair ∈ ((given parameter).filter fun other => other.1 = pair.1) ↔
      pair ∈ (given parameter').filter fun other => other.1 = pair.1 := by
    rw [same pair.1]
  simpa using own

private theorem ofParameter_eq_ok_iff (legible : environment.Legible)
    (wellFormed : ∀ part ∈ parts parameter, WellFormed part) :
    ofParameter environment parameter = .ok options ↔
      (¬∃ pair ∈ given parameter, pair.1 ∈ switchKeys ∧ spellsBoolean pair.2 = false) ∧
        (inForce environment parameter).checked = .ok options := by
  rw [ofParameter_eq_ok_of_wellFormed legible wellFormed, exists_refused_iff wellFormed, not_not]
  exact and_congr_right fun valid => by rw [settle_eq environment wellFormed valid]

end

section

variable {α : Type} {first second value : α} {one other written : Text}

private theorem choice_ne_none_iff :
    (if written = [] || written = one then some first
      else if written = other then some second else none) ≠ none ↔ written ∈ [one, other, []] := by
  split
  · rename_i isFirst
    have named : written = [] ∨ written = one := by simpa using isFirst
    rcases named with rfl | rfl <;> simp
  · rename_i notFirst
    have unnamed : ¬(written = [] ∨ written = one) := by simpa using notFirst
    split
    · rename_i isSecond
      simp [isSecond]
    · rename_i notSecond
      simp [not_or.mp unnamed, notSecond]

private theorem choice_eq_second_iff (differ : first ≠ second) (named : other ∉ [[], one])
    (chosen : (if written = [] || written = one then some first
      else if written = other then some second else none) = some value) :
    value = second ↔ written = other := by
  split at chosen
  · rename_i isFirst
    obtain rfl := Option.some.inj chosen
    refine iff_of_false differ ?_
    rintro rfl
    exact named (by simpa using isFirst)
  · split at chosen
    · rename_i isSecond
      exact iff_of_true (Option.some.inj chosen).symm isSecond
    · cases chosen

end

private theorem known_iff {written : WrittenOptions} : written.Known ↔
    (written.grpcJs = true ∨
      written.mode ∈ (["grpc-js", "grpc-node", "grpc", ""] : List Text)) ∧
    written.importStyle ∈ (["root", "relative", ""] : List Text) ∧
    written.reserved ∈ (["prefix", "suffix", ""] : List Text) := by
  refine and_congr ?_ (and_congr choice_ne_none_iff choice_ne_none_iff)
  rw [WrittenOptions.modeInForce]
  cases written.grpcJs with
  | true => exact iff_of_true (List.mem_cons_self ..) (Or.inl rfl)
  | false => exact (or_iff_right Bool.false_ne_true).symm

section

variable {environment : Environment} {parameter : Text}

/-- If the parts of a parameter are well formed and the switches of the environment are booleans,
then the options are refused exactly if a switch is given something else or the mode, import style or
reserved word policy in force is not known. If not, they are what is in force, and the short key wins
over the mode. It does not matter what the environment says about what the parameter sets, nor how
parts with different keys are ordered. -/
theorem ofParameter_last_wins (legible : environment.Legible)
    (wellFormed : ∀ part ∈ parts parameter, WellFormed part) :
    let final := inForce environment parameter
    ((∃ fault, ofParameter environment parameter = .error fault) ↔
      (∃ pair ∈ given parameter, pair.1 ∈ switchKeys ∧ spellsBoolean pair.2 = false) ∨
        (final.grpcJs = false ∧
          final.mode ∉ (["grpc-js", "grpc-node", "grpc", ""] : List Text)) ∨
        final.importStyle ∉ (["root", "relative", ""] : List Text) ∨
        final.reserved ∉ (["prefix", "suffix", ""] : List Text)) ∧
    (∀ options, ofParameter environment parameter = .ok options →
      (options.grpcJs = true ↔ final.grpcJs = true ∨ final.mode = Text.ofString "grpc-js") ∧
      (options.importStyle = .relative ↔ final.importStyle = Text.ofString "relative") ∧
      (options.reserved = .trailing ↔ final.reserved = Text.ofString "suffix") ∧
      options.comments = final.comments ∧ options.parallel = final.parallel) ∧
    (∀ environment' : Environment, environment'.Legible →
      AgreeOnRest parameter environment environment' →
      ofParameter environment parameter = ofParameter environment' parameter) ∧
    ∀ parameter' : Text, (∀ part ∈ parts parameter', WellFormed part) →
      SameByKey parameter parameter' → ∀ options,
      ofParameter environment parameter = .ok options ↔
        ofParameter environment parameter' = .ok options := by
  intro final
  refine ⟨?_, fun options accepted => ?_, fun environment' legible' agree => ?_,
    fun parameter' wellFormed' same options => ?_⟩
  · rw [Result.exists_eq_error_iff]
    simp only [ofParameter_eq_ok_iff legible wellFormed, exists_and_left,
      WrittenOptions.exists_checked_iff, known_iff, Classical.not_and_iff_not_or_not, not_or, not_not,
      Bool.not_eq_true]
    rfl
  · have passed := ((ofParameter_eq_ok_iff legible wellFormed).mp accepted).2
    obtain ⟨-, js, style, policy, comments, parallel⟩ := WrittenOptions.checked_eq_ok.mp passed
    refine ⟨js.trans ?_, choice_eq_second_iff (by decide) (by decide) style,
      choice_eq_second_iff (by decide) (by decide) policy, comments, parallel⟩
    rw [WrittenOptions.modeInForce, ite_eq_left_iff, or_iff_not_imp_left]
    rfl
  · exact agree.ofParameter legible legible' wellFormed
  · rw [ofParameter_eq_ok_iff legible wellFormed, ofParameter_eq_ok_iff legible wellFormed',
      same.inForce_eq]
    simp only [same.mem_iff]

end

/-- An environment that several programs share. -/
def sharedEnvironment : Environment := fun name =>
  if name = Text.ofString "MODE" then some "grpc-js"
  else if name = Text.ofString "IMPORT_STYLE" then some "relative"
  else if name = Text.ofString "PROTOC_GEN_TSD_RESERVED" then some "suffix"
  else if name = Text.ofString "RESERVED" then some "prefix"
  else if name = Text.ofString "PROTOC_GEN_TSD_COMMENTS" then some "F"
  else if name = Text.ofString "COMMENTS" then some "perhaps"
  else none

def remainingEnvironment : Environment := fun name =>
  if name = Text.ofString "MODE" then none
  else if name = Text.ofString "PROTOC_GEN_TSD_COMMENTS" then none
  else if name = Text.ofString "COMMENTS" then none
  else sharedEnvironment name

/-- A parameter that asks for the opposite in the end. -/
def changeOfMind : Text := "comments=0, --mode=grpc,grpc-js,comments,grpc_js=f"

def changeOfOrder : Text := "grpc-js=true,grpc-js=f,comments=0,comments,mode=grpc"

theorem ofParameter_last_wins_changeOfMind :
    sharedEnvironment.Legible ∧ (∀ part ∈ parts changeOfMind, WellFormed part) ∧
      ofParameter sharedEnvironment changeOfMind = .ok ⟨false, .relative, .trailing, true, false⟩ ∧
      ofParameter remainingEnvironment changeOfMind =
        .ok ⟨false, .relative, .trailing, true, false⟩ ∧
      ofParameter sharedEnvironment changeOfOrder =
        .ok ⟨false, .relative, .trailing, true, false⟩ := by
  have comments : sharedEnvironment.either? "PROTOC_GEN_TSD_COMMENTS" "COMMENTS" =
      some (Text.ofString "F") := by
    decide
  have comments' : remainingEnvironment.either? "PROTOC_GEN_TSD_COMMENTS" "COMMENTS" = none := by
    decide
  have parallel : sharedEnvironment.either? "PROTOC_GEN_TSD_PARALLEL" "PARALLEL" = none := by
    decide
  have parallel' : remainingEnvironment.either? "PROTOC_GEN_TSD_PARALLEL" "PARALLEL" = none := by
    decide
  have legible : sharedEnvironment.Legible := by
    constructor
    · rw [comments]
      decide
    · rw [parallel]
      nofun
  have legible' : remainingEnvironment.Legible := by
    constructor
    · rw [comments']
      nofun
    · rw [parallel']
      nofun
  have wellFormed : ∀ part ∈ parts changeOfMind, WellFormed part := by decide
  have agree : AgreeOnRest changeOfMind sharedEnvironment remainingEnvironment := by
    constructor
    · exact fun unset => absurd unset (by decide)
    · decide
    · decide
    · exact fun unset => absurd unset (by decide)
    · rw [parallel, parallel']
      exact fun _ => rfl
  have same : SameByKey changeOfMind changeOfOrder := by
    have mind : given changeOfMind = ([("comments", "0"), ("mode", "grpc"), ("grpc-js", "true"),
      ("comments", "true"), ("grpc-js", "f")] : List (Text × Text)) := by decide
    have order : given changeOfOrder = ([("grpc-js", "true"), ("grpc-js", "f"), ("comments", "0"),
      ("comments", "true"), ("mode", "grpc")] : List (Text × Text)) := by decide
    intro key
    rw [mind, order]
    by_cases isComments : Text.ofString "comments" = key
    · subst isComments
      decide
    · by_cases isMode : Text.ofString "mode" = key
      · subst isMode
        decide
      · simp [List.filter_cons, isComments, isMode]
  have final : inForce sharedEnvironment changeOfMind =
      ⟨"grpc", false, "relative", "suffix", true, false⟩ := by decide
  obtain ⟨fails, succeeds, elsewhere, reordered⟩ := ofParameter_last_wins legible wellFormed
  rw [final] at fails succeeds
  have accepted : ofParameter sharedEnvironment changeOfMind =
      .ok ⟨false, .relative, .trailing, true, false⟩ := by
    cases parsed : ofParameter sharedEnvironment changeOfMind with
    | error fault => exact absurd (fails.mp ⟨fault, parsed⟩) (by decide)
    | ok options =>
      obtain ⟨grpcJs, importStyle, reserved, comments, parallel⟩ := options
      obtain ⟨js, style, policy, commented, inParallel⟩ := succeeds _ parsed
      obtain rfl : grpcJs = false := Bool.eq_false_iff.mpr fun on => absurd (js.mp on) (by decide)
      obtain rfl : importStyle = .relative := style.mpr rfl
      obtain rfl : reserved = .trailing := policy.mpr rfl
      obtain rfl : comments = true := commented
      obtain rfl : parallel = false := inParallel
      rfl
  exact ⟨legible, wellFormed, accepted, (elsewhere _ legible' agree).symm.trans accepted,
    (reordered changeOfOrder (by decide) same _).mp accepted⟩

end Options

end ProtoTypings
