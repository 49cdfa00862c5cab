import ProtoTypings.Proofs.Parameter

set_option autoImplicit false
set_option relaxedAutoImplicit false

/-!
Parts of a parameter that name no flag. Such a part is refused where it is read as a flag. It is not
read after a part of nothing but hyphens, nor where it is taken as the value of a flag; then it goes
by unnoticed, unless there is something else to object to.
-/

namespace ProtoTypings

namespace Options

open WrittenOptions (defaults)

/-- What there may be to object to besides flags that do not exist. -/
inductive Objection (environment : Environment) (parts : List Text) : Prop
  /-- A switch of the environment is no boolean. -/
  | setting {setting : Setting} {value : Text} (switch : setting ∈ [Setting.comments, .parallel])
    (set : environment.setting? setting = some value) (noBoolean : Numeral.boolean? value = none)
  /-- The last part is a text flag, and its value is missing. -/
  | noValue {reading : Reading} (member : reading ∈ readings parts)
    (missing : reading.value? = none)
  /-- A boolean flag is given something else. -/
  | noBoolean {assignment : Assignment} (member : assignment ∈ assignments parts)
    (refused : ¬Valid assignment)
  /-- Mode, import style or reserved word policy are not known in the end. -/
  | unknownValue (refused : ¬((defaults environment).settle (assignments parts)).Known)

private theorem ofParameter_fails_iff {environment : Environment} {parameter : Text} :
    (∃ fault, ofParameter environment parameter = .error fault) ↔
      (∃ reading ∈ readings (parts parameter), Unknown reading.part) ∨
        Objection environment (parts parameter) := by
  rw [Result.exists_eq_error_iff]
  simp only [ofParameter_eq_ok, exists_and_left, WrittenOptions.exists_checked_iff]
  constructor
  · intro refused
    by_contra accepted
    obtain ⟨noUnknown, noObjection⟩ := not_or.mp accepted
    refine refused ⟨?_, ?_, ?_, ?_⟩
    · intro setting switch value set noBoolean
      exact noObjection (.setting switch set noBoolean)
    · intro reading member asksNothing
      rcases Reading.assignment?_eq_none.mp asksNothing with stray | missing
      · exact noUnknown ⟨reading, member, stray⟩
      · exact noObjection (.noValue member missing)
    · intro assignment member
      by_contra notTaken
      exact noObjection (.noBoolean member notTaken)
    · by_contra unknown
      exact noObjection (.unknownValue unknown)
  · rintro objection ⟨readable, asked, valid, known⟩
    rcases objection with ⟨reading, member, stray⟩ | objection
    · exact asked reading member (Reading.assignment?_eq_none.mpr (.inl stray))
    · cases objection with
      | setting switch set noBoolean => exact readable _ switch _ set noBoolean
      | noValue member missing =>
        exact asked _ member (Reading.assignment?_eq_none.mpr (.inr missing))
      | noBoolean member refused => exact refused (valid _ member)
      | unknownValue refused => exact refused known

end Options

namespace Request

open Options (parts readings Unknown Objection SelfContained)

/-- A parameter with a part that names no flag is refused, and so is the request. -/
def RefusesUnknown (request : Request) (environment : Environment) : Prop :=
  (∃ part ∈ parts request.parameter, Unknown part) →
    (∃ fault, Options.ofParameter environment request.parameter = .error fault) ∧
      ∃ fault, request.options environment = .error fault ∧ fault.kind = .malformedRequest

private theorem options_of_ofParameter {request : Request} {environment : Environment}
    (refused : ∃ fault, Options.ofParameter environment request.parameter = .error fault) :
    ∃ fault, request.options environment = .error fault ∧ fault.kind = .malformedRequest := by
  obtain ⟨fault, refused⟩ := refused
  exact ⟨.malformedBy "invalid plugin parameter" fault, by rw [options, refused], rfl⟩

/-- Flags that do not exist are noticed exactly if one is read as a flag, or if there is something
else to object to; in particular, if all parts are self-contained. -/
theorem refusesUnknown_iff (request : Request) (environment : Environment) :
    (request.RefusesUnknown environment ↔
      (∀ part ∈ parts request.parameter, ¬Unknown part) ∨
      (∃ reading ∈ readings (parts request.parameter), Unknown reading.part) ∨
      Objection environment (parts request.parameter)) ∧
    ((∀ part ∈ parts request.parameter, SelfContained part) →
      request.RefusesUnknown environment) := by
  refine ⟨?_, fun selfContained => ?_⟩
  · rw [← Options.ofParameter_fails_iff]
    constructor
    · intro refuses
      by_cases stray : ∃ part ∈ parts request.parameter, Unknown part
      · exact .inr (refuses stray).1
      · exact .inl fun part member unknown => stray ⟨part, member, unknown⟩
    · rintro (allKnown | refused) ⟨part, member, unknown⟩
      · exact absurd unknown (allKnown part member)
      · exact ⟨refused, options_of_ofParameter refused⟩
  · rintro ⟨part, member, unknown⟩
    have read : Options.Reading.ofPart part ∈ readings (parts request.parameter) := by
      rw [Options.readings_of_selfContained selfContained]
      exact List.mem_map_of_mem member
    have refused : ∃ fault, Options.ofParameter environment request.parameter = .error fault :=
      Options.ofParameter_fails_iff.mpr (.inl ⟨_, read, unknown⟩)
    exact ⟨refused, options_of_ofParameter refused⟩

private theorem unknown_bogus : Unknown "bogus=1" := Options.unknown_iff.mpr (by decide)

theorem refusesUnknown_iff_bogus :
    let request : Request := { parameter := "comments, --mode=grpc,bogus=1" }
    (∀ part ∈ parts request.parameter, SelfContained part) ∧
      ∃ fault, request.options (fun _ => none) = .error fault ∧
        fault.kind = .malformedRequest := by
  intro request
  have split : parts request.parameter = ["comments", "mode=grpc", "bogus=1"] := by decide
  have selfContained : ∀ part ∈ parts request.parameter, SelfContained part := by
    rw [split]
    simp only [SelfContained]
    decide
  have stray : ∃ part ∈ parts request.parameter, Unknown part :=
    ⟨"bogus=1", by decide, unknown_bogus⟩
  exact ⟨selfContained, ((request.refusesUnknown_iff fun _ => none).2 selfContained stray).2⟩

/-- Behind a part of hyphens, or as the value of a flag that is set again later, a part that names
no flag goes by unnoticed. -/
theorem not_refusesUnknown_hidden :
    ¬RefusesUnknown { parameter := "--,bogus=1" } (fun _ => none) ∧
      ¬RefusesUnknown { parameter := "mode,bogus=1,mode=grpc-js" } (fun _ => none) := by
  have accepted (parameter : Text) (options : Options)
      (member : Text.ofString "bogus=1" ∈ parts parameter)
      (parsed : Options.ofParameter (fun _ => none) parameter = .ok options) :
      ¬RefusesUnknown { parameter } (fun _ => none) := by
    intro refuses
    obtain ⟨fault, refused⟩ := (refuses ⟨_, member, unknown_bogus⟩).1
    cases parsed.symm.trans refused
  exact ⟨accepted _ {} (by decide) (by decide +kernel),
    accepted _ { grpcJs := true } (by decide) (by decide +kernel)⟩

end Request

end ProtoTypings
