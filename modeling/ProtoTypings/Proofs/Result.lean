import Mathlib.Data.List.Forall2
import ProtoTypings.Fault

set_option autoImplicit false
set_option relaxedAutoImplicit false

/-!
How results that may be failures are taken apart: one step of a chain at a time, and a list worked
on member by member. What a chain can fail with follows from what its steps can fail with.
-/

namespace ProtoTypings.Result

variable {ε α β : Type}

theorem ok_bind (a : α) (next : α → Except ε β) : (Except.ok a >>= next) = next a := rfl

theorem exists_eq_error_iff {result : Except ε α} :
    (∃ e, result = .error e) ↔ ¬∃ a, result = .ok a := by
  cases result <;> simp

theorem bind_eq_ok {first : Except ε α} {next : α → Except ε β} {b : β} :
    first >>= next = .ok b ↔ ∃ a, first = .ok a ∧ next a = .ok b := by
  cases first with
  | error e => simp [bind, Except.bind]
  | ok a => simp [bind, Except.bind]

theorem bind_eq_error {first : Except ε α} {next : α → Except ε β} {e : ε} :
    first >>= next = .error e ↔
      first = .error e ∨ ∃ a, first = .ok a ∧ next a = .error e := by
  cases first with
  | error e => simp [bind, Except.bind]
  | ok a => simp [bind, Except.bind]

theorem pure_eq_ok {a b : α} : (pure a : Except ε α) = .ok b ↔ a = b := by
  simp [pure, Except.pure]

theorem map_eq_ok {f : α → β} {result : Except ε α} {b : β} :
    result.map f = .ok b ↔ ∃ a, result = .ok a ∧ f a = b := by
  cases result with
  | error e => simp [Except.map]
  | ok a => simp [Except.map]

theorem map_map {γ : Type} (f : α → β) (g : β → γ) (result : Except ε α) :
    (result.map f).map g = result.map fun a => g (f a) := by
  cases result <;> rfl

theorem map_eq_error {f : α → β} {result : Except ε α} {e : ε} :
    result.map f = .error e ↔ result = .error e := by
  cases result with
  | error e => simp [Except.map]
  | ok a => simp [Except.map]

theorem mapM_eq_ok {f : α → Except ε β} {xs : List α} {ys : List β} :
    xs.mapM f = .ok ys ↔ List.Forall₂ (fun x y => f x = .ok y) xs ys := by
  induction xs generalizing ys with
  | nil =>
    rw [List.mapM_nil, pure_eq_ok, List.forall₂_nil_left_iff]
    exact eq_comm
  | cons x xs ih =>
    simp only [List.mapM_cons, bind_eq_ok, pure_eq_ok, List.forall₂_cons_left_iff, ih]
    constructor
    · rintro ⟨y, first, rest, more, rfl⟩
      exact ⟨y, rest, first, more, rfl⟩
    · rintro ⟨y, rest, first, more, rfl⟩
      exact ⟨y, first, rest, more, rfl⟩

theorem forall₂_map_self {R : α → β → Prop} {f : α → β} {xs : List α}
    (each : ∀ x ∈ xs, R x (f x)) : List.Forall₂ R xs (xs.map f) :=
  List.forall₂_map_right_iff.mpr (List.forall₂_same.mpr each)

theorem forall₂_imp_of_mem {R S : α → β → Prop} {xs : List α} {ys : List β}
    (step : ∀ x ∈ xs, ∀ y ∈ ys, R x y → S x y) (pairs : List.Forall₂ R xs ys) :
    List.Forall₂ S xs ys := by
  obtain ⟨lengths, related⟩ := List.forall₂_iff_zip.mp pairs
  refine List.forall₂_iff_zip.mpr ⟨lengths, fun {x y} pair => ?_⟩
  exact step x (List.of_mem_zip pair).1 y (List.of_mem_zip pair).2 (related pair)

theorem exists_of_mem_forall₂ {R : α → β → Prop} {xs : List α} {ys : List β}
    (pairs : List.Forall₂ R xs ys) {y : β} (member : y ∈ ys) : ∃ x ∈ xs, R x y := by
  obtain ⟨index, bound, rfl⟩ := List.getElem_of_mem member
  have bound' : index < xs.length := pairs.length_eq ▸ bound
  exact ⟨xs[index], List.getElem_mem bound', pairs.get bound' bound⟩

theorem forall_mem_iff_of_forall₂ {R : α → β → Prop} {xs : List α} {ys : List β}
    (pairs : List.Forall₂ R xs ys) {P : α → Prop} {Q : β → Prop}
    (same : ∀ x ∈ xs, ∀ y ∈ ys, R x y → (P x ↔ Q y)) : (∀ x ∈ xs, P x) ↔ ∀ y ∈ ys, Q y := by
  constructor
  · intro all y member
    obtain ⟨x, memberX, related⟩ := exists_of_mem_forall₂ pairs member
    exact (same x memberX y member related).mp (all x memberX)
  · intro all x member
    obtain ⟨y, memberY, related⟩ := exists_of_mem_forall₂ pairs.flip member
    exact (same x member y memberY related).mpr (all y memberY)

theorem exists_of_mem_mapM {f : α → Except ε β} {xs : List α} {ys : List β}
    (worked : xs.mapM f = .ok ys) {y : β} (member : y ∈ ys) : ∃ x ∈ xs, f x = .ok y :=
  exists_of_mem_forall₂ (mapM_eq_ok.mp worked) member

theorem mapM_ok_of_mem {f : α → Except ε β} {xs : List α} {ys : List β}
    (worked : xs.mapM f = .ok ys) {x : α} (member : x ∈ xs) : ∃ y ∈ ys, f x = .ok y :=
  exists_of_mem_forall₂ (mapM_eq_ok.mp worked).flip member

theorem mapM_congr {f g : α → Except ε β} {xs : List α} (same : ∀ x ∈ xs, f x = g x) :
    xs.mapM f = xs.mapM g := by
  induction xs with
  | nil => rfl
  | cons x xs ih =>
    rw [List.mapM_cons, List.mapM_cons, same x List.mem_cons_self,
      ih fun x' member => same x' (List.mem_cons_of_mem x member)]

theorem mapM_eq_error {f : α → Except ε β} {xs : List α} {e : ε} (failed : xs.mapM f = .error e) :
    ∃ x ∈ xs, f x = .error e := by
  induction xs with
  | nil => simp [pure, Except.pure] at failed
  | cons x xs ih =>
    rw [List.mapM_cons] at failed
    rcases bind_eq_error.mp failed with first | ⟨y, -, more⟩
    · exact ⟨x, List.mem_cons_self, first⟩
    · rcases bind_eq_error.mp more with rest | ⟨ys, -, impossible⟩
      · obtain ⟨x', member, inner⟩ := ih rest
        exact ⟨x', List.mem_cons_of_mem x member, inner⟩
      · simp [pure, Except.pure] at impossible

private theorem exists_mapM_eq_ok {f : α → Except ε β} {xs : List α} :
    (∃ ys, xs.mapM f = .ok ys) ↔ ∀ x ∈ xs, ∃ y, f x = .ok y := by
  constructor
  · rintro ⟨ys, worked⟩ x member
    obtain ⟨y, -, made⟩ := mapM_ok_of_mem worked member
    exact ⟨y, made⟩
  · intro each
    cases worked : xs.mapM f with
    | ok ys => exact ⟨ys, rfl⟩
    | error e =>
      obtain ⟨x, member, failed⟩ := mapM_eq_error worked
      obtain ⟨y, made⟩ := each x member
      rw [made] at failed
      cases failed

theorem exists_mapM_eq_ok_iff {γ : Type} {f : α → Except ε β} {xs : List α} {g : α → γ}
    {zs : List γ} (parts : xs.map g = zs) {P : γ → Prop}
    (each : ∀ x ∈ xs, (∃ y, f x = .ok y) ↔ P (g x)) :
    (∃ ys, xs.mapM f = .ok ys) ↔ ∀ z ∈ zs, P z := by
  rw [exists_mapM_eq_ok, ← parts, List.forall_mem_map]
  exact forall₂_congr each

theorem located_eq_ok {place : Place} {result : Except Fault α} {a : α} :
    Fault.located place result = .ok a ↔ result = .ok a := by
  cases result <;> simp [Fault.located]

theorem located_eq_error {place : Place} {result : Except Fault α} {fault : Fault} :
    Fault.located place result = .error fault ↔
      ∃ inner, result = .error inner ∧ fault = .within place inner := by
  cases result <;> simp [Fault.located, eq_comm]

/-- A result that, if it is a failure, is one of a certain sort. -/
def FailsOnly (P : ε → Prop) (result : Except ε α) : Prop := ∀ e, result = .error e → P e

section

variable {P : ε → Prop}

@[simp] theorem failsOnly_ok (a : α) : FailsOnly P (.ok a) := by
  intro e failed
  cases failed

@[simp] theorem failsOnly_pure (a : α) : FailsOnly P (pure a : Except ε α) := failsOnly_ok a

@[simp] theorem failsOnly_error {e : ε} : FailsOnly P (.error e : Except ε α) ↔ P e := by
  simp [FailsOnly]

@[simp] theorem failsOnly_throw {e : ε} : FailsOnly P (throw e : Except ε α) ↔ P e :=
  failsOnly_error

theorem FailsOnly.mono {Q : ε → Prop} {result : Except ε α} (fails : FailsOnly P result)
    (weaker : ∀ e, P e → Q e) : FailsOnly Q result := fun e failed => weaker e (fails e failed)

theorem FailsOnly.bind {first : Except ε α} {next : α → Except ε β} (fails : FailsOnly P first)
    (thereafter : ∀ a, first = .ok a → FailsOnly P (next a)) : FailsOnly P (first >>= next) := by
  intro e failed
  rcases bind_eq_error.mp failed with early | ⟨a, done, late⟩
  · exact fails e early
  · exact thereafter a done e late

theorem FailsOnly.map {f : α → β} {result : Except ε α} (fails : FailsOnly P result) :
    FailsOnly P (result.map f) := by
  cases result with
  | error e => exact failsOnly_error.mpr (failsOnly_error.mp fails)
  | ok a => exact failsOnly_ok (f a)

theorem FailsOnly.mapM {f : α → Except ε β} {xs : List α} (each : ∀ x ∈ xs, FailsOnly P (f x)) :
    FailsOnly P (xs.mapM f) := by
  intro e failed
  obtain ⟨x, member, inner⟩ := mapM_eq_error failed
  exact each x member e inner

end

theorem FailsOnly.located {P : Fault → Prop} {place : Place}
    (closed : ∀ fault, P fault → P (.within place fault))
    {result : Except Fault α} (fails : FailsOnly P result) :
    FailsOnly P (Fault.located place result) := by
  intro fault failed
  obtain ⟨inner, failedInside, rfl⟩ := located_eq_error.mp failed
  exact closed inner (fails inner failedInside)

/-- Two results that are failures for the same reason, or successes in a relation. -/
def Agree {γ : Type} (R : α → γ → Prop) : Except ε α → Except ε γ → Prop
  | .ok a, .ok c => R a c
  | .error e, .error e' => e = e'
  | _, _ => False

section

variable {γ δ : Type} {R : α → γ → Prop} {S : β → δ → Prop}

theorem agree_iff_map_eq {f : α → β} {g : γ → β} {first : Except ε α} {second : Except ε γ} :
    Agree (fun a c => f a = g c) first second ↔ first.map f = second.map g := by
  cases first <;> cases second <;> simp [Agree, Except.map]

theorem agree_iff_eq {first second : Except ε α} : Agree Eq first second ↔ first = second := by
  cases first <;> cases second <;> simp [Agree]

theorem Agree.cases {first : Except ε α} {second : Except ε γ} (agree : Agree R first second) :
    (∃ e, first = .error e ∧ second = .error e) ∨
      ∃ a c, first = .ok a ∧ second = .ok c ∧ R a c := by
  cases first with
  | error e =>
    cases second with
    | error e' =>
      obtain rfl : e = e' := agree
      exact Or.inl ⟨e, rfl, rfl⟩
    | ok c => exact agree.elim
  | ok a =>
    cases second with
    | error e' => exact agree.elim
    | ok c => exact Or.inr ⟨a, c, rfl, rfl, agree⟩

theorem Agree.mono {Q : α → γ → Prop} {first : Except ε α} {second : Except ε γ}
    (agree : Agree R first second) (weaker : ∀ a c, first = .ok a → R a c → Q a c) :
    Agree Q first second := by
  rcases agree.cases with ⟨e, rfl, rfl⟩ | ⟨a, c, rfl, rfl, related⟩
  · exact agree
  · exact weaker a c rfl related

theorem Agree.bind {first : Except ε α} {second : Except ε γ} {next : α → Except ε β}
    {next' : γ → Except ε δ} (agree : Agree R first second)
    (thereafter : ∀ a c, R a c → Agree S (next a) (next' c)) :
    Agree S (first >>= next) (second >>= next') := by
  rcases agree.cases with ⟨e, rfl, rfl⟩ | ⟨a, c, rfl, rfl, related⟩
  · exact agree
  · exact thereafter a c related

theorem Agree.mapM {f : α → Except ε β} {g : α → Except ε δ} {xs : List α}
    (each : ∀ x ∈ xs, Agree S (f x) (g x)) : Agree (List.Forall₂ S) (xs.mapM f) (xs.mapM g) := by
  induction xs with
  | nil => exact List.Forall₂.nil
  | cons x xs ih =>
    rw [List.mapM_cons, List.mapM_cons]
    refine .bind (each x List.mem_cons_self) fun b d related => ?_
    refine .bind (ih fun x' member => each x' (List.mem_cons_of_mem x member)) fun bs ds more => ?_
    exact List.Forall₂.cons related more

theorem Agree.located {place : Place} {first : Except Fault α} {second : Except Fault γ}
    (agree : Agree R first second) :
    Agree R (Fault.located place first) (Fault.located place second) := by
  rcases agree.cases with ⟨fault, rfl, rfl⟩ | ⟨a, c, rfl, rfl, related⟩
  · exact congrArg (Fault.within place) agree
  · exact related

theorem map_eq_map_iff {f : α → β} {g : γ → β} {xs : List α} {ys : List γ} :
    xs.map f = ys.map g ↔ List.Forall₂ (fun x y => f x = g y) xs ys := by
  rw [← List.forall₂_map_right_iff, ← List.forall₂_map_left_iff, List.forall₂_eq_eq_eq]

end

end ProtoTypings.Result
