import ProtoTypings.Proofs.ImportPath

set_option autoImplicit false
set_option relaxedAutoImplicit false

/-!
Where import paths lead. A path is walked segment by segment through the tree of directories; in
both styles an import path between clean paths ends at the module that it is meant for, and no walk
that ends with a name gets there in fewer steps than the shortest style.
-/

namespace ProtoTypings.Path

/-- One step from a directory, which is given by the names from the root down: `.` stays, `..` goes
up but not beyond the root, a name goes down. -/
def step? (here : List Text) (segment : Text) : Option (List Text) :=
  if segment = [Text.dot] then some here
  else if segment = up then if here = [] then none else some here.dropLast
  else if segment = [] then none
  else some (here ++ [segment])

def walk? (here parts : List Text) : Option (List Text) := parts.foldlM step? here

private theorem step?_name (here : List Text) {segment : Text} (name : IsName segment) :
    step? here segment = some (here ++ [segment]) := by
  obtain ⟨nonempty, notDot, notUp⟩ := name
  rw [step?, if_neg notDot, if_neg notUp, if_neg nonempty]

private theorem step?_up_concat (here : List Text) (name : Text) :
    step? (here ++ [name]) up = some here := by
  have apart : up ≠ [Text.dot] := by decide
  rw [step?, if_neg apart, if_pos rfl, if_neg (by simp), List.dropLast_concat]

private theorem walk?_append (here first second : List Text) :
    walk? here (first ++ second) = (walk? here first).bind (walk? · second) :=
  List.foldlM_append

private theorem walk?_cons (here : List Text) (part : Text) (parts : List Text) :
    walk? here (part :: parts) = (step? here part).bind (walk? · parts) :=
  List.foldlM_cons

private theorem walk?_names (here : List Text) {parts : List Text}
    (names : ∀ part ∈ parts, IsName part) : walk? here parts = some (here ++ parts) := by
  induction parts generalizing here with
  | nil => rw [List.append_nil]; rfl
  | cons part rest ih =>
    have further := ih (here ++ [part]) fun other member =>
      names other (List.mem_cons_of_mem part member)
    rw [walk?_cons, step?_name here (names part List.mem_cons_self), Option.bind_some, further,
      List.append_assoc, List.singleton_append]

private theorem walk?_replicate_up {here : List Text} {steps : Nat} (enough : steps ≤ here.length) :
    walk? here (List.replicate steps up) = some (here.take (here.length - steps)) := by
  induction steps generalizing here with
  | zero => rw [Nat.sub_zero, List.take_length]; rfl
  | succ steps ih =>
    have nonempty : here ≠ [] := List.ne_nil_of_length_pos (by omega)
    obtain ⟨above, name, rfl⟩ := (List.eq_nil_or_concat' here).resolve_left nonempty
    rw [List.length_append, List.length_singleton] at enough ⊢
    have further : walk? above (List.replicate steps up) =
        some (above.take (above.length - steps)) := ih (by omega)
    rw [List.replicate_succ, walk?_cons, step?_up_concat, Option.bind_some, further,
      List.take_append_of_le_length (by omega), Nat.add_sub_add_right]

private theorem walk?_ascent {here : List Text} {steps : Nat} (enough : steps ≤ here.length) :
    walk? here (ascent steps) = some (here.take (here.length - steps)) := by
  rw [ascent]
  split
  · rename_i level
    rw [level, Nat.sub_zero, List.take_length]
    rfl
  · exact walk?_replicate_up enough

private theorem walk?_route (style : ImportStyle) (origin : Text) {target : Text}
    (clean : IsClean target) :
    walk? (directories origin) (segments (route style origin target)) = some (segments target) := by
  obtain ⟨steps, rest, enough, -, parts, way⟩ := segments_route style origin target
  have names : ∀ part ∈ rest, IsName part := by
    intro part member
    exact clean part (parts ▸ List.mem_append_right _ member)
  rw [way, walk?_append, walk?_ascent enough, Option.bind_some, walk?_names _ names, parts]

private theorem ofSegments_concat (parts : List Text) (last : Text) :
    ofSegments (parts ++ [last]) = ofSegments (parts ++ [[]]) ++ last := by
  induction parts with
  | nil => simp [ofSegments, Text.join]
  | cons part rest ih =>
    rw [List.cons_append, List.cons_append, ofSegments_cons part (by simp),
      ofSegments_cons part (by simp), ih, List.append_assoc, List.cons_append]

private theorem ofSegments_concat_nil {parts : List Text} (nonempty : parts ≠ []) :
    ofSegments (parts ++ [[]]) = ofSegments parts ++ [Text.slash] := by
  obtain ⟨front, last, rfl⟩ := (List.eq_nil_or_concat' parts).resolve_left nonempty
  induction front with
  | nil => simp [ofSegments, Text.join, List.intercalate_cons_cons]
  | cons part rest ih =>
    rw [List.cons_append, List.cons_append, ofSegments_cons part (by simp),
      ofSegments_cons part (by simp), ih (by simp), List.append_assoc, List.cons_append]

private theorem upToLastSlash_eq (path : Text) :
    (path.reverse.dropWhile (· ≠ Text.slash)).reverse =
      ofSegments ((segments path).dropLast ++ [[]]) := by
  obtain ⟨parts, last, split⟩ := (List.eq_nil_or_concat' (segments path)).resolve_left
    (segments_ne_nil path)
  have plain : ∀ byte ∈ last.reverse, decide (byte ≠ Text.slash) = true := by
    intro byte member
    have segment : last ∈ segments path := by simp [split]
    have whole : Text.slash ∉ last := slash_notMem_segment segment
    rw [decide_eq_true_eq]
    rintro rfl
    exact whole (List.mem_reverse.mp member)
  have written : path = ofSegments (parts ++ [[]]) ++ last := by
    rw [← ofSegments_concat, ← split, ofSegments_segments]
  have slashed : (ofSegments (parts ++ [[]])).reverse.dropWhile (· ≠ Text.slash) =
      (ofSegments (parts ++ [[]])).reverse := by
    by_cases nonempty : parts = []
    · rw [nonempty]
      rfl
    · rw [ofSegments_concat_nil nonempty, List.reverse_concat]
      exact List.dropWhile_cons_of_neg (by simp)
  rw [split, List.dropLast_concat]
  conv_lhs => rw [written]
  rw [List.reverse_append, List.dropWhile_append_of_pos plain, slashed, List.reverse_reverse]

private theorem foldl_cleanStep (rooted : Bool) {parts : List Text}
    (names : ∀ part ∈ parts, IsName part)
    (done : List Text) : parts.foldl (cleanStep rooted) done = parts.reverse ++ done := by
  induction parts generalizing done with
  | nil => rfl
  | cons part rest ih =>
    obtain ⟨nonempty, notDot, notUp⟩ := names part List.mem_cons_self
    have kept : cleanStep rooted done part = part :: done := by
      unfold cleanStep
      rw [if_neg (by simp [nonempty, notDot])]
      exact if_neg notUp
    rw [List.foldl_cons, kept, ih (fun other member => names other (List.mem_cons_of_mem _ member)),
      List.reverse_cons, List.append_assoc, List.singleton_append]

private theorem directory_of_isClean {path : Text} (clean : IsClean path) :
    directory path = if (segments path).dropLast = [] then [Text.dot]
      else ofSegments (segments path).dropLast := by
  have names : ∀ part ∈ (segments path).dropLast, IsName part :=
    fun part member => clean part (List.dropLast_subset _ member)
  have whole : ∀ part ∈ (segments path).dropLast ++ [[]], Text.slash ∉ part := by
    intro part member
    rcases List.mem_append.mp member with before | atLast
    · exact slash_notMem_segment (List.dropLast_subset _ before)
    · rw [List.mem_singleton.mp atLast]
      exact List.not_mem_nil
  have relative : (ofSegments ((segments path).dropLast ++ [[]])).head? ≠ some Text.slash := by
    cases parts : (segments path).dropLast with
    | nil =>
      rw [List.nil_append]
      exact Option.some_ne_none _ ∘ Eq.symm
    | cons first rest =>
      rw [parts] at names whole
      have nonempty := (names first List.mem_cons_self).1
      have plain := whole first List.mem_cons_self
      obtain ⟨byte, others, rfl⟩ := List.exists_cons_of_ne_nil nonempty
      rw [List.cons_append, ofSegments_cons _ (by simp), List.cons_append, List.head?_cons]
      rintro slash
      exact plain (Option.some.inj slash ▸ List.mem_cons_self)
  have done : (segments (ofSegments ((segments path).dropLast ++ [[]]))).foldl (cleanStep false) []
      = (segments path).dropLast.reverse := by
    rw [segments_ofSegments (by simp) whole, List.foldl_append, foldl_cleanStep false names]
    simp [cleanStep]
  rw [directory, upToLastSlash_eq, Path.clean]
  simp only [relative, decide_false, done, List.reverse_reverse, if_false]

private theorem directories_directory {path : Text} (clean : IsClean path) :
    directories (directory path) = (segments path).dropLast := by
  rw [directory_of_isClean clean]
  split
  · rename_i root
    rw [root]
    rfl
  · rename_i nonempty
    have parts : segments (ofSegments (segments path).dropLast) = (segments path).dropLast :=
      segments_ofSegments nonempty fun part member =>
        slash_notMem_segment (List.dropLast_subset _ member)
    have notDot : ofSegments (segments path).dropLast ≠ [Text.dot] := by
      intro dot
      have single : (segments path).dropLast = [[Text.dot]] := by
        rw [← parts, dot]
        rfl
      have member : [Text.dot] ∈ (segments path).dropLast := single ▸ List.mem_singleton_self _
      exact (clean _ (List.dropLast_subset _ member)).2.1 rfl
    rw [directories, if_neg notDot, parts]

private theorem dropLast_segments_messageFile (path : Text) :
    (segments (messageFile path)).dropLast = (segments path).dropLast := by
  obtain ⟨directories, last, name, own, modules⟩ := segments_module path
  rw [messageFile, modules ".d.ts" (by decide), own, List.dropLast_concat, List.dropLast_concat]

/-- The module that a path denotes in a file. -/
def denoted? (file path : Text) : Option Text :=
  (walk? (segments file).dropLast (segments path)).map ofSegments

/-- Between clean paths, an import path is relative and denotes the module of its target, in either
style. -/
theorem importPath_denotes {source target : Text} (cleanSource : IsClean source)
    (cleanTarget : IsClean target) (generated : isWellKnown target = false) :
    (∀ style,
      (Text.ofString "./" <+: importPath source target style ∨
        Text.ofString "../" <+: importPath source target style) ∧
      denoted? (messageFile source) (importPath source target style) =
        some (messageModule target)) ∧
    denoted? (messageFile source) (importPath source target .fromRoot) =
      denoted? (messageFile source) (importPath source target .relative) := by
  have leads (style : ImportStyle) :
      denoted? (messageFile source) (importPath source target style) =
        some (messageModule target) := by
    rw [denoted?, dropLast_segments_messageFile, ← directories_directory cleanSource,
      importPath_eq, if_neg (by simp [generated]), walk?_route style _ cleanTarget.messageModule,
      Option.map_some, ofSegments_segments]
  refine ⟨fun style => ⟨?_, leads style⟩, (leads .fromRoot).trans (leads .relative).symm⟩
  rw [importPath_eq, if_neg (by simp [generated])]
  exact prefix_route style _ _

/-- A file in a directory that has the name of the module it imports. -/
theorem importPath_denotes_cart :
    IsClean "shop/cart_pb/item.proto" ∧ IsClean "shop/cart.proto" ∧
    isWellKnown "shop/cart.proto" = false ∧
    importPath "shop/cart_pb/item.proto" "shop/cart.proto" .fromRoot =
      Text.ofString "../../shop/cart_pb" ∧
    importPath "shop/cart_pb/item.proto" "shop/cart.proto" .relative =
      Text.ofString "../cart_pb" ∧
    ∀ style, denoted? (messageFile "shop/cart_pb/item.proto")
      (importPath "shop/cart_pb/item.proto" "shop/cart.proto" style) =
        some (Text.ofString "shop/cart_pb") := by
  have cleanSource : IsClean "shop/cart_pb/item.proto" := by decide
  have cleanTarget : IsClean "shop/cart.proto" := by decide
  have generated : isWellKnown "shop/cart.proto" = false := by decide
  exact ⟨cleanSource, cleanTarget, generated, by decide, by decide,
    fun style => ((importPath_denotes cleanSource cleanTarget generated).1 style).2⟩

/-- How many steps two directories lie apart. -/
def distance (here there : List Text) : Nat :=
  (here.length - sharedLength here there) + (there.length - sharedLength here there)

private theorem sharedLength_self (parts : List Text) :
    sharedLength parts parts = parts.length := by
  induction parts with
  | nil => rfl
  | cons part rest ih => rw [sharedLength, if_pos rfl, ih, List.length_cons]

private theorem sharedLength_concat (here there : List Text) (name : Text) :
    sharedLength here there ≤ sharedLength (here ++ [name]) there ∧
      sharedLength (here ++ [name]) there ≤ sharedLength here there + 1 := by
  induction here generalizing there with
  | nil =>
    refine ⟨Nat.zero_le _, ?_⟩
    exact (sharedLength_le ([] ++ [name]) there).1
  | cons first rest ih =>
    cases there with
    | nil => exact ⟨Nat.zero_le _, Nat.zero_le _⟩
    | cons other others =>
      rw [List.cons_append, sharedLength, sharedLength]
      split
      · exact ⟨Nat.succ_le_succ (ih others).1, Nat.succ_le_succ (ih others).2⟩
      · exact ⟨Nat.zero_le _, Nat.zero_le _⟩

private theorem distance_concat (here there : List Text) (name : Text) :
    distance here there ≤ distance (here ++ [name]) there + 1 ∧
      distance (here ++ [name]) there ≤ distance here there + 1 := by
  obtain ⟨keeps, gains⟩ := sharedLength_concat here there name
  obtain ⟨bound, bound'⟩ := sharedLength_le here there
  have boundNext := (sharedLength_le (here ++ [name]) there).1
  have boundNext' := (sharedLength_le (here ++ [name]) there).2
  rw [List.length_append, List.length_singleton] at boundNext
  rw [distance, distance, List.length_append, List.length_singleton]
  omega

private theorem distance_step {here next there : List Text} {part : Text}
    (kind : part = up ∨ IsName part)
    (stepped : step? here part = some next) : distance here there ≤ distance next there + 1 := by
  rcases kind with rfl | name
  · have nonempty : here ≠ [] := by
      rintro rfl
      cases stepped
    obtain ⟨above, last, rfl⟩ := (List.eq_nil_or_concat' here).resolve_left nonempty
    rw [step?_up_concat] at stepped
    obtain rfl := Option.some.inj stepped
    exact (distance_concat above there last).2
  · rw [step?_name here name] at stepped
    obtain rfl := Option.some.inj stepped
    exact (distance_concat here there part).1

private theorem distance_le_length {here there parts : List Text}
    (kinds : ∀ part ∈ parts, part = up ∨ IsName part) (walked : walk? here parts = some there) :
    distance here there ≤ parts.length := by
  induction parts generalizing here with
  | nil =>
    obtain rfl : here = there := Option.some.inj walked
    rw [distance, sharedLength_self, Nat.sub_self]
    exact Nat.le_refl 0
  | cons part rest ih =>
    rw [walk?_cons] at walked
    obtain ⟨next, stepped, further⟩ := Option.bind_eq_some_iff.mp walked
    have later := ih (fun other member => kinds other (List.mem_cons_of_mem part member)) further
    have first : distance here there ≤ distance next there + 1 :=
      distance_step (kinds part List.mem_cons_self) stepped
    rw [List.length_cons]
    omega

/-- A way from the directory of one file to another file: steps up and names, a name at the end,
never above the root. -/
structure IsWay (source target : Text) (parts : List Text) : Prop where
  kinds : ∀ part ∈ parts, part = up ∨ IsName part
  ending : ∃ front last, parts = front ++ [last] ∧ IsName last
  arrives : walk? (segments source).dropLast parts = some (segments target)

/-- All but the last step of a way lead to the directory of its target. -/
private theorem IsWay.distance_lt {source target : Text} {parts : List Text}
    (way : IsWay source target parts) :
    distance (segments source).dropLast (segments target).dropLast < parts.length := by
  obtain ⟨front, last, rfl, name⟩ := way.ending
  have arrives := way.arrives
  rw [walk?_append] at arrives
  obtain ⟨there, walked, lastStep⟩ := Option.bind_eq_some_iff.mp arrives
  rw [walk?_cons, step?_name there name] at lastStep
  have target_eq : there ++ [last] = segments target := Option.some.inj lastStep
  have bound := distance_le_length
    (fun part member => way.kinds part (List.mem_append_left _ member)) walked
  rw [← target_eq, List.dropLast_concat, List.length_append, List.length_singleton]
  omega

private theorem trimStart_ascent (steps : Nat) {rest : List Text} (nonempty : rest ≠ []) :
    Text.trimStart "./" (ofSegments (ascent steps ++ rest)) =
      ofSegments (List.replicate steps up ++ rest) := by
  cases steps with
  | zero =>
    have here : ofSegments (ascent 0 ++ rest) = Text.ofString "./" ++ ofSegments rest :=
      ofSegments_cons [Text.dot] nonempty
    have found : (Text.ofString "./").isPrefixOf? (Text.ofString "./" ++ ofSegments rest) =
        some (ofSegments rest) := List.isPrefixOf?_eq_some_iff_append_eq.mpr rfl
    rw [here, Text.trimStart, found, Option.getD_some, List.replicate_zero, List.nil_append]
  | succ steps =>
    have above : ofSegments (List.replicate (steps + 1) up ++ rest) =
        up ++ Text.slash :: ofSegments (List.replicate steps up ++ rest) :=
      ofSegments_cons up (List.append_ne_nil_of_right_ne_nil _ nonempty)
    rw [ascent, if_neg (Nat.succ_ne_zero steps), above]
    rfl

private theorem segments_trimStart_shortestFrom (origin target : Text) :
    segments (Text.trimStart "./" (shortestFrom origin target)) =
      List.replicate ((directories origin).length - sharedDepth origin target) up ++
        (segments target).drop (sharedDepth origin target) := by
  have nonempty := drop_sharedDepth_ne_nil origin target
  rw [← ofSegments_segments (shortestFrom origin target), segments_shortestFrom,
    trimStart_ascent _ nonempty]
  refine segments_ofSegments (List.append_ne_nil_of_right_ne_nil _ nonempty) fun part member => ?_
  rcases List.mem_append.mp member with climbing | remaining
  · rw [List.eq_of_mem_replicate climbing]
    decide
  · exact slash_notMem_segment (List.mem_of_mem_drop remaining)

private theorem length_trimStart_shortestFrom (origin target : Text) :
    (segments (Text.trimStart "./" (shortestFrom origin target))).length =
      distance (directories origin) (segments target).dropLast + 1 := by
  obtain ⟨inOrigin, inTarget⟩ := sharedDepth_le origin target
  rw [segments_trimStart_shortestFrom, List.length_append, List.length_replicate, List.length_drop,
    distance, List.length_dropLast, ← sharedDepth]
  omega

private theorem isWay_shortestFrom {source target : Text} (cleanSource : IsClean source)
    (cleanTarget : IsClean target) :
    IsWay source target
      (segments (Text.trimStart "./" (shortestFrom (directory source) target))) := by
  have enough := Nat.sub_le (directories (directory source)).length
    (sharedDepth (directory source) target)
  have names : ∀ part ∈ (segments target).drop (sharedDepth (directory source) target),
      IsName part := fun part member => cleanTarget part (List.mem_of_mem_drop member)
  rw [segments_trimStart_shortestFrom]
  refine ⟨fun part member => ?_, ?_, ?_⟩
  · rcases List.mem_append.mp member with climbing | remaining
    · exact Or.inl (List.eq_of_mem_replicate climbing)
    · exact Or.inr (names part remaining)
  · obtain ⟨front, last, split⟩ := (List.eq_nil_or_concat' _).resolve_left
      (drop_sharedDepth_ne_nil (directory source) target)
    have name : IsName last := names last (by simp [split])
    rw [split, ← List.append_assoc]
    exact ⟨_, last, rfl, name⟩
  · rw [← directories_directory cleanSource, walk?_append, walk?_replicate_up enough,
      Option.bind_some, walk?_names _ names, Nat.sub_sub_self (sharedDepth_le _ _).1,
      ← take_sharedDepth, List.take_append_drop]

/-- Among the ways from a file to a module, the import path in the shortest style has the fewest
segments. -/
theorem importPath_shortest {source target : Text} (cleanSource : IsClean source)
    (cleanTarget : IsClean target) (generated : isWellKnown target = false) :
    IsWay source (messageModule target)
      (segments (Text.trimStart "./" (importPath source target .relative))) ∧
    ∀ parts, IsWay source (messageModule target) parts →
      (segments (Text.trimStart "./" (importPath source target .relative))).length ≤
        parts.length := by
  have path : importPath source target .relative =
      shortestFrom (directory source) (messageModule target) := by
    rw [importPath_eq, if_neg (by simp [generated]), route]
  rw [path]
  refine ⟨isWay_shortestFrom cleanSource cleanTarget.messageModule, fun parts way => ?_⟩
  rw [length_trimStart_shortestFrom, directories_directory cleanSource]
  exact way.distance_lt

/-- The way over the root is a way too, with two segments more. -/
theorem importPath_shortest_cart :
    IsClean "shop/cart_pb/item.proto" ∧ IsClean "shop/cart.proto" ∧
    isWellKnown "shop/cart.proto" = false ∧
    IsWay "shop/cart_pb/item.proto" "shop/cart_pb" [up, "cart_pb"] ∧
    IsWay "shop/cart_pb/item.proto" "shop/cart_pb" [up, up, "shop", "cart_pb"] ∧
    ∀ parts, IsWay "shop/cart_pb/item.proto" "shop/cart_pb" parts → 2 ≤ parts.length := by
  have cleanSource : IsClean "shop/cart_pb/item.proto" := by decide
  have cleanTarget : IsClean "shop/cart.proto" := by decide
  have generated : isWellKnown "shop/cart.proto" = false := by decide
  obtain ⟨way, fewest⟩ := importPath_shortest cleanSource cleanTarget generated
  refine ⟨cleanSource, cleanTarget, generated, way, ⟨by decide, ?_, by decide⟩, fewest⟩
  exact ⟨[up, up, "shop"], "cart_pb", rfl, by decide⟩

end ProtoTypings.Path
