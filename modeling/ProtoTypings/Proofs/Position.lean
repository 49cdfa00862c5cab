import Mathlib.Data.List.Forall2
import ProtoTypings.Declaration.Basic
import ProtoTypings.Descriptor

set_option autoImplicit false
set_option relaxedAutoImplicit false

/-!
Positions in trees of messages. Descriptors, schema files and declarations all nest messages in
messages; a position says which message of such a tree is meant, whatever the depth.
-/

namespace ProtoTypings

/-- The node of a forest at a position: an index among the roots, then for each level further down
an index among the children. -/
def nodeAt? {α : Type} (children : α → List α) : List α → List Nat → Option α
  | _, [] => none
  | roots, [index] => roots[index]?
  | roots, index :: next :: rest =>
    match roots[index]? with
    | none => none
    | some node => nodeAt? children (children node) (next :: rest)

/-- The message of a descriptor at a position; map entries count. -/
def Descriptor.File.messageAt? (file : Descriptor.File) (position : List Nat) :
    Option Descriptor.Message :=
  nodeAt? Descriptor.Message.nested file.messages position

def Schema.File.messageAt? (file : Schema.File) (position : List Nat) : Option Schema.Message :=
  nodeAt? Schema.Message.messages file.messages position

def Declaration.Outline.messageAt? {α : Type} (outline : Declaration.Outline α)
    (position : List Nat) : Option (Declaration.Message α) :=
  nodeAt? Declaration.Message.messages outline.messages position

section

variable {α β : Type} {childrenA : α → List α} {childrenB : β → List β}

theorem nodeAt?_below {roots : List α} {index : Nat} {root node : α}
    (found : roots[index]? = some root) {position : List Nat}
    (below : nodeAt? childrenA (childrenA root) position = some node) :
    nodeAt? childrenA roots (index :: position) = some node := by
  cases position with
  | nil => simp [nodeAt?] at below
  | cons next rest => simpa only [nodeAt?, found] using below

theorem exists_root_of_nodeAt? {roots : List α} {index next : Nat} {rest : List Nat} {node : α}
    (found : nodeAt? childrenA roots (index :: next :: rest) = some node) :
    ∃ root, roots[index]? = some root ∧
      nodeAt? childrenA (childrenA root) (next :: rest) = some node := by
  cases root : roots[index]? with
  | none => simp [nodeAt?, root] at found
  | some top =>
    simp only [nodeAt?, root] at found
    exact ⟨top, rfl, found⟩

theorem nodeAt?_invariant {P : α → Prop}
    (step : ∀ node, P node → ∀ child ∈ childrenA node, P child)
    {roots : List α} (initial : ∀ node ∈ roots, P node) {position : List Nat} {node : α}
    (found : nodeAt? childrenA roots position = some node) : P node := by
  induction position generalizing roots with
  | nil => simp [nodeAt?] at found
  | cons index rest ih =>
    cases rest with
    | nil => exact initial node (List.mem_of_getElem? found)
    | cons next rest =>
      obtain ⟨top, root, below⟩ := exists_root_of_nodeAt? found
      exact ih (step top (initial top (List.mem_of_getElem? root))) below

theorem related_at {R : α → β → Prop} {as : List α} {bs : List β}
    (related : List.Forall₂ R as bs) {index : Nat} {a : α} (found : as[index]? = some a) :
    ∃ b, bs[index]? = some b ∧ R a b := by
  obtain ⟨bound, rfl⟩ := List.getElem?_eq_some_iff.mp found
  have bound' : index < bs.length := related.length_eq ▸ bound
  exact ⟨bs[index], List.getElem?_eq_getElem bound', related.get bound bound'⟩

/-- Forests whose roots are related pairwise, by a relation that passes on to the children, have
related nodes at the same positions. -/
theorem nodeAt?_related {R : α → β → Prop}
    (step : ∀ a b, R a b → List.Forall₂ R (childrenA a) (childrenB b))
    {rootsA : List α} {rootsB : List β} (initial : List.Forall₂ R rootsA rootsB)
    {position : List Nat} {a : α} (found : nodeAt? childrenA rootsA position = some a) :
    ∃ b, nodeAt? childrenB rootsB position = some b ∧ R a b := by
  induction position generalizing rootsA rootsB with
  | nil => simp [nodeAt?] at found
  | cons index rest ih =>
    cases rest with
    | nil => exact related_at initial found
    | cons next rest =>
      obtain ⟨top, root, below⟩ := exists_root_of_nodeAt? found
      obtain ⟨other, otherRoot, related⟩ := related_at initial root
      obtain ⟨b, foundB, relatedB⟩ := ih (step top other related) below
      exact ⟨b, nodeAt?_below otherRoot foundB, relatedB⟩

theorem nodeAt?_forall_iff {R : α → β → Prop}
    (step : ∀ a b, R a b → List.Forall₂ R (childrenA a) (childrenB b))
    {rootsA : List α} {rootsB : List β} (initial : List.Forall₂ R rootsA rootsB)
    {position : List Nat} {P : α → Prop} {Q : β → Prop}
    (same : ∀ a b, R a b → nodeAt? childrenA rootsA position = some a →
      nodeAt? childrenB rootsB position = some b → (P a ↔ Q b)) :
    (∀ a, nodeAt? childrenA rootsA position = some a → P a) ↔
      ∀ b, nodeAt? childrenB rootsB position = some b → Q b := by
  constructor
  · intro all b foundB
    have stepBack (b : β) (a : α) (related : R a b) :
        List.Forall₂ (fun b a => R a b) (childrenB b) (childrenA a) := (step a b related).flip
    obtain ⟨a, foundA, related⟩ := nodeAt?_related stepBack initial.flip foundB
    exact (same a b related foundA foundB).mp (all a foundA)
  · intro all a foundA
    obtain ⟨b, foundB, related⟩ := nodeAt?_related step initial foundA
    exact (same a b related foundA foundB).mpr (all b foundB)

theorem nodeAt?_map {f : α → β} (natural : ∀ node, childrenB (f node) = (childrenA node).map f)
    (roots : List α) (position : List Nat) :
    nodeAt? childrenB (roots.map f) position = (nodeAt? childrenA roots position).map f := by
  induction position generalizing roots with
  | nil => rfl
  | cons index rest ih =>
    cases rest with
    | nil => exact List.getElem?_map
    | cons next rest =>
      simp only [nodeAt?, List.getElem?_map]
      cases roots[index]? with
      | none => rfl
      | some top =>
        simp only [Option.map_some, natural]
        exact ih (childrenA top)

end

end ProtoTypings
