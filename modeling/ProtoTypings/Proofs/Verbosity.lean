import Mathlib.Data.List.Basic
import ProtoTypings.Log
import ProtoTypings.Options

set_option autoImplicit false
set_option relaxedAutoImplicit false

/-!
Verbosity as a threshold. It is meant to let information through up to the detail that it names, and
errors always. It does so up to 126. From 127 on the details above it are no longer held back, and
above 128 it wraps as a signed byte, so that raising it can silence the log, errors included.
-/

namespace ProtoTypings.Log

/-- What a logger is asked for: information of some detail, an error, or values to be carried by all
later lines. -/
inductive Call where
  | info (detail : Nat) (message : Text) (pairs : List Pair)
  | error (cause message : Text) (pairs : List Pair)
  | carry (pairs : List Pair)

namespace Call

/-- The entries of a sequence of calls, if earlier ones have left values to carry. -/
def entries (carried : List Pair) : List Call → List Entry
  | [] => []
  | .info detail message pairs :: rest =>
    ⟨.info detail, message, carried ++ pairs⟩ :: entries carried rest
  | .error cause message pairs :: rest =>
    .failure cause message (carried ++ pairs) :: entries carried rest
  | .carry pairs :: rest => entries (carried ++ pairs) rest

def lines (verbosity : Int) (calls : List Call) : List Text :=
  written verbosity (entries [] calls)

end Call

/-- What a verbosity asks for: all errors, and, if it is positive, information of at most its
detail. -/
def Severity.isWanted (verbosity : Int) : Severity → Bool
  | .info detail => 1 ≤ verbosity && detail ≤ verbosity
  | .error => true

/-- At this verbosity every sequence of calls writes the lines that are asked for, and no others. -/
def IsThreshold (verbosity : Int) : Prop :=
  ∀ calls : List Call, Call.lines verbosity calls =
    ((Call.entries [] calls).filter fun entry => entry.severity.isWanted verbosity).map Entry.line

/-- Raising the verbosity to at most a limit removes no line of any sequence of calls. -/
def RaisingKeepsLines (limit : Int) : Prop :=
  ∀ low high, low ≤ high → high ≤ limit →
    ∀ calls : List Call, (Call.lines low calls).Sublist (Call.lines high calls)

/-- A positive verbosity counts by its last byte: up to 128 it is negated, and above it becomes a
rank that no information has. -/
private theorem threshold_of_pos {verbosity : Int} (positive : 0 < verbosity) :
    threshold verbosity = if verbosity % 256 ≤ 128 then -(verbosity % 256)
      else 256 - verbosity % 256 := by
  have remainder : -verbosity % 256 = if verbosity % 256 = 0 then 0
      else 256 - verbosity % 256 := by
    split <;> omega
  rw [threshold, if_neg (by omega), Int.bmod_def, show ((256 : Nat) : Int) = 256 from rfl,
    remainder]
  have low : 0 ≤ verbosity % 256 := by omega
  have high : verbosity % 256 < 256 := by omega
  split <;> split <;> split <;> omega

private theorem threshold_of_nonpos {verbosity : Int} (small : verbosity ≤ 0) :
    threshold verbosity = 2 := by
  rw [threshold, if_pos small]

private theorem isWritten_iff {verbosity : Int} {entry : Entry} :
    entry.isWritten verbosity = true ↔ threshold verbosity ≤ entry.severity.rank := by
  rw [Entry.isWritten, decide_eq_true_iff]

private theorem threshold_le_rank_info {verbosity : Int} {detail : Nat} :
    threshold verbosity ≤ (Severity.info detail).rank ↔
      0 < verbosity ∧ verbosity % 256 ≤ 128 ∧ min (detail : Int) 127 ≤ verbosity % 256 := by
  have rank : (Severity.info detail).rank = -min (detail : Int) 127 := by
    change -max 0 (min (detail : Int) 127) = -min (detail : Int) 127
    omega
  rw [rank]
  by_cases positive : 0 < verbosity
  · rw [threshold_of_pos positive]
    split <;> omega
  · rw [threshold_of_nonpos (by omega)]
    omega

private theorem threshold_le_rank_error {verbosity : Int} :
    threshold verbosity ≤ Severity.error.rank ↔
      verbosity ≤ 0 ∨ verbosity % 256 ≤ 128 ∨ 254 ≤ verbosity % 256 := by
  change threshold verbosity ≤ 2 ↔ _
  by_cases positive : 0 < verbosity
  · rw [threshold_of_pos positive]
    split <;> omega
  · rw [threshold_of_nonpos (by omega)]
    omega

private theorem threshold_anti {low high : Int} (raised : low ≤ high) (unwrapped : high ≤ 128) :
    threshold high ≤ threshold low := by
  by_cases positive : 0 < low
  · rw [threshold_of_pos positive, threshold_of_pos (by omega), if_pos (by omega),
      if_pos (by omega)]
    omega
  · rw [threshold_of_nonpos (show low ≤ 0 by omega)]
    exact threshold_le_rank_error.mpr (by omega)

private theorem written_sublist {low high : Int} (lower : threshold high ≤ threshold low)
    (entries : List Entry) : (written low entries).Sublist (written high entries) := by
  refine List.Sublist.map _ (List.monotone_filter_right entries ?_)
  intro entry shown
  rw [isWritten_iff] at shown ⊢
  exact Int.le_trans lower shown

private theorem severity_of_mem_entries {carried : List Pair} {calls : List Call} {entry : Entry}
    (member : entry ∈ Call.entries carried calls) :
    entry.severity = .error ∨ ∃ detail : Nat, entry.severity = .info detail := by
  induction calls generalizing carried with
  | nil => cases member
  | cons call rest ih =>
    cases call with
    | info detail message pairs =>
      rcases List.mem_cons.mp member with rfl | later
      · exact Or.inr ⟨detail, rfl⟩
      · exact ih later
    | error cause message pairs =>
      rcases List.mem_cons.mp member with rfl | later
      · exact Or.inl rfl
      · exact ih later
    | carry pairs => exact ih member

private theorem IsThreshold.info {verbosity : Int} (tells : IsThreshold verbosity) (detail : Nat) :
    threshold verbosity ≤ (Severity.info detail).rank ↔ 1 ≤ verbosity ∧ detail ≤ verbosity := by
  let entry : Entry := ⟨.info detail, [], []⟩
  have lines : ([entry].filter (·.isWritten verbosity)).map Entry.line =
      ([entry].filter fun entry => entry.severity.isWanted verbosity).map Entry.line :=
    tells [.info detail [] []]
  have same : entry.isWritten verbosity = entry.severity.isWanted verbosity := by
    cases shown : entry.isWritten verbosity <;>
      cases wanted : entry.severity.isWanted verbosity <;> simp [shown, wanted] at lines ⊢
  rw [show Severity.info detail = entry.severity from rfl, ← isWritten_iff, same]
  simp [entry, Severity.isWanted]

private theorem isThreshold_iff (verbosity : Int) : IsThreshold verbosity ↔ verbosity ≤ 126 := by
  constructor
  · intro tells
    by_contra large
    -- From 127 on, the detail that the verbosity names and the one after it have the same rank.
    obtain ⟨detail, rfl⟩ := Int.eq_ofNat_of_zero_le (show 0 ≤ verbosity by omega)
    have named := tells.info detail
    have next := tells.info (detail + 1)
    rw [threshold_le_rank_info] at named next
    omega
  · intro small calls
    refine congrArg (List.map Entry.line) (List.filter_congr fun entry member => ?_)
    rw [Bool.eq_iff_iff, isWritten_iff]
    rcases severity_of_mem_entries member with isError | ⟨detail, isInfo⟩
    · rw [isError, threshold_le_rank_error]
      exact iff_of_true (by omega) rfl
    · rw [isInfo, threshold_le_rank_info]
      simp only [Severity.isWanted, Bool.and_eq_true, decide_eq_true_eq]
      omega

private theorem raisingKeepsLines_iff (limit : Int) : RaisingKeepsLines limit ↔ limit ≤ 128 := by
  constructor
  · intro keeps
    by_contra large
    have kept := keeps 128 129 (by omega) (by omega) [.error [] [] []]
    have silent : Call.lines 129 [.error [] [] []] = [] := by decide
    have shown : Call.lines 128 [.error [] [] []] ≠ [] := by decide
    rw [silent, List.sublist_nil] at kept
    exact shown kept
  · intro small low high raised bounded calls
    exact written_sublist (threshold_anti raised (Int.le_trans bounded small)) _

/-- What is written at every verbosity. The log is what the verbosity asks for exactly up to 126,
and raising the verbosity keeps all lines exactly up to 128. A positive verbosity counts only by its
last byte, and where that is above 128 no information is written, and errors only if it is 254 or
255. -/
theorem verbosity_threshold_iff (verbosity : Int) :
    (IsThreshold verbosity ↔ verbosity ≤ 126) ∧
    (RaisingKeepsLines verbosity ↔ verbosity ≤ 128) ∧
    (0 < verbosity → ∀ message pairs,
      (∀ detail : Nat, (⟨.info detail, message, pairs⟩ : Entry).isWritten verbosity = true ↔
        verbosity % 256 ≤ 128 ∧ min (detail : Int) 127 ≤ verbosity % 256) ∧
      ∀ cause, (Entry.failure cause message pairs).isWritten verbosity = true ↔
        verbosity % 256 ≤ 128 ∨ 254 ≤ verbosity % 256) := by
  refine ⟨isThreshold_iff verbosity, raisingKeepsLines_iff verbosity, ?_⟩
  intro positive message pairs
  constructor
  · intro detail
    rw [isWritten_iff, threshold_le_rank_info, and_iff_right positive]
  · intro cause
    have notSmall : ¬verbosity ≤ 0 := by omega
    exact isWritten_iff.trans (threshold_le_rank_error.trans (or_iff_right notSmall))

def verbosityOnly (value : Text) : Environment := fun name =>
  if name = Setting.verbose.ownVariable then some value else none

/-- At verbosity 129 the log is silent: it lacks the line of an error, which is written at all lower
verbosities, and the information that is written at verbosity 1. -/
theorem not_isThreshold_wrapped :
    (verbosityOnly "129").verbosity = .ok 129 ∧ ¬IsThreshold 129 ∧ ¬RaisingKeepsLines 129 ∧
    Call.lines 129 [.error "disk full" "write failed" [], .info 1 "entering state" []] = [] ∧
    Call.lines 1 [.error "disk full" "write failed" [], .info 1 "entering state" []] =
      ["ERROR\tprotoc-gen-tsd\twrite failed\t\x7b\"error\": \"disk full\"\x7d",
        "DEBUG\tprotoc-gen-tsd\tentering state"] := by
  refine ⟨by decide +kernel, ?_, ?_, by decide, by decide +kernel⟩
  · rw [isThreshold_iff]
    decide
  · rw [raisingKeepsLines_iff]
    decide

end ProtoTypings.Log
