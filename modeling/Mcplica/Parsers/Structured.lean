import Mcplica.Contracts.Json
import Mcplica.Library.Checks

/-! # Structured sources

`app.parsers.structured`: a loader of JSON or YAML returns a graph of objects, in which aliases share objects and may close
cycles. `_validate_tree` bounds what the graph unfolds to, and `_json_value` copies it. -/

namespace Mcplica.Parsers

open Mcplica.Library Mcplica.Contracts

/-! ## Loaded values -/

/-- What is neither a dictionary nor a list. -/
inductive LoadedScalar where
  | none
  | text (value : Text)
  | bool (value : Bool)
  | int (value : Int)
  /-- a number with its literal; infinities and what is no number have none -/
  | float (number : Option (Rat × Text))
  /-- A value of another type, such as a date, a set or a pair; neither function looks into it. -/
  | other (typeName : Text)
  deriving Repr, DecidableEq

def LoadedScalar.isText : LoadedScalar → Bool
  | .text _ => true
  | _ => false

abbrev ObjectId := Nat

inductive LoadedValue where
  | scalar (value : LoadedScalar)
  | container (identity : ObjectId)
  deriving Repr, DecidableEq

inductive Container where
  | mapping (entries : List (LoadedScalar × LoadedValue))
  | list (items : List LoadedValue)
  deriving Repr, DecidableEq

/-- The objects of a loaded value. No text is a key of a dictionary twice; of keys of other types, such as two dates, too
little is kept to tell them apart. -/
structure Heap where
  object : ObjectId → Container
  distinct : ∀ identity entries, object identity = .mapping entries →
    ((entries.map Prod.fst).filter LoadedScalar.isText).Nodup

def Container.children : Container → List LoadedValue
  | .mapping entries => entries.map Prod.snd
  | .list items => items

/-! ## Limits -/

/-- `_MAX_NODES` -/
def maxNodes : Nat := 200000

/-- `_MAX_DEPTH` -/
def maxDepth : Nat := 100

/-- An entry of the stack of `_validate_tree`. -/
structure PendingValue where
  value : LoadedValue
  depth : Nat
  ancestors : List ObjectId

section

variable (heap : Heap)

/-- The `while` loop of `_validate_tree`; the first value is the top of the stack. -/
def validatePending : List PendingValue → Nat → Except Text Unit
  | [], _ => .ok ()
  | pending :: stack, nodes =>
    if nodes + 1 > maxNodes then
      .error "Structured source exceeds the node limit"
    else if pending.depth > maxDepth then
      .error "Structured source exceeds the nesting limit"
    else
      match pending.value with
      | .scalar _ => validatePending stack (nodes + 1)
      | .container identity =>
        if identity ∈ pending.ancestors then
          .error "Structured source contains a recursive alias"
        else
          let nested (child : LoadedValue) : PendingValue := ⟨child, pending.depth + 1, identity :: pending.ancestors⟩
          validatePending (((heap.object identity).children.map nested).reverse ++ stack) (nodes + 1)
termination_by _ nodes => maxNodes - nodes

/-- `_validate_tree` -/
def validateTree (root : LoadedValue) : Except Text Unit :=
  validatePending heap [⟨root, 0, []⟩] 0

/-! ## Conversion -/

def jsonScalar (path : Text) : LoadedScalar → Except Text Json
  | .none => .ok .null
  | .text value => .ok (.string value)
  | .bool value => .ok (.bool value)
  | .int value => .ok (.number value (if value < 0 then '-' :: Text.ofNat value.natAbs else Text.ofNat value.natAbs))
  | .float (some (number, literal)) => .ok (.number number literal)
  | .float none => .error ("Structured source contains a non-finite number at " ++ path)
  | .other typeName => .error ("Structured source contains unsupported YAML value at " ++ path ++ ": " ++ typeName)

/-- The items of a list, from the given index on. -/
def jsonItems (convert : Text → LoadedValue → Option (Except Text Json)) (path : Text) :
    Nat → List LoadedValue → Option (Except Text (List Json))
  | _, [] => some (.ok [])
  | index, item :: rest => do
    match ← convert (path ++ "/" ++ Text.ofNat index) item with
    | .error error => return .error error
    | .ok converted => return (← jsonItems convert path (index + 1) rest).map (converted :: ·)

/-- The entries of a dictionary; as its keys differ, each assignment adds one. -/
def jsonEntries (convert : Text → LoadedValue → Option (Except Text Json)) (path : Text) :
    List (LoadedScalar × LoadedValue) → Option (Except Text JsonObject)
  | [] => some (.ok [])
  | (.text key, item) :: rest => do
    match ← convert (path ++ "/" ++ key) item with
    | .error error => return .error error
    | .ok converted => return (← jsonEntries convert path rest).map ((key, converted) :: ·)
  | _ :: _ => some (.error ("Structured source object key at " ++ path ++ " must be text"))

/-- `_json_value`, for calls that are nested so deep; `none` where they are nested deeper. -/
def jsonValue : Nat → Text → LoadedValue → Option (Except Text Json)
  | 0, _, _ => none
  | _ + 1, path, .scalar value => some (jsonScalar path value)
  | levels + 1, path, .container identity =>
    match heap.object identity with
    | .mapping entries => (jsonEntries (jsonValue levels) path entries).map (·.map .object)
    | .list items => (jsonItems (jsonValue levels) path 0 items).map (·.map .array)

end

/-! ## Unfolding -/

/-- A value in which nothing is shared. -/
inductive LoadedTree where
  | leaf (value : LoadedScalar)
  | mapping (keys : List LoadedScalar) (children : List LoadedTree)
  | list (children : List LoadedTree)

namespace LoadedTree

mutual

def nodes : LoadedTree → Nat
  | .leaf _ => 1
  | .mapping _ children => nodesOf children + 1
  | .list children => nodesOf children + 1

def nodesOf : List LoadedTree → Nat
  | [] => 0
  | child :: rest => nodes child + nodesOf rest

end

mutual

def depth : LoadedTree → Nat
  | .leaf _ => 0
  | .mapping _ children => depthBelow children
  | .list children => depthBelow children

/-- The depth of a container with these children. -/
def depthBelow : List LoadedTree → Nat
  | [] => 0
  | child :: rest => max (depth child + 1) (depthBelow rest)

end

def isPlain : LoadedScalar → Bool
  | .float none | .other _ => false
  | _ => true

mutual

/-- Every key is text, and every leaf is null, text, a Boolean or a finite number. -/
def IsJson : LoadedTree → Prop
  | .leaf value => isPlain value = true
  | .mapping keys children => keys.all LoadedScalar.isText = true ∧ AreJson children
  | .list children => AreJson children

def AreJson : List LoadedTree → Prop
  | [] => True
  | child :: rest => IsJson child ∧ AreJson rest

end

theorem nodesOf_append (first second : List LoadedTree) : nodesOf (first ++ second) = nodesOf first + nodesOf second := by
  induction first with
  | nil => simp [nodesOf]
  | cons child rest ih => simp [nodesOf, ih, Nat.add_assoc]

theorem nodesOf_reverse (children : List LoadedTree) : nodesOf children.reverse = nodesOf children := by
  induction children with
  | nil => rfl
  | cons child rest ih =>
    rw [List.reverse_cons, nodesOf_append, ih]
    simp only [nodesOf]
    omega

theorem depthBelow_le {children : List LoadedTree} {bound : Nat} (below : ∀ child ∈ children, child.depth < bound) :
    depthBelow children ≤ bound := by
  induction children with
  | nil => exact Nat.zero_le _
  | cons child rest ih =>
    obtain ⟨first, later⟩ := List.forall_mem_cons.mp below
    rw [depthBelow]
    exact max_le first (ih later)

end LoadedTree

/-- The value with a copy of every object for each way to it, when no way is longer than the levels. -/
def unfoldValue (heap : Heap) : Nat → LoadedValue → Option LoadedTree
  | 0, _ => none
  | _ + 1, .scalar value => some (.leaf value)
  | levels + 1, .container identity =>
    match heap.object identity with
    | .mapping entries =>
      ((entries.map Prod.snd).mapM (unfoldValue heap levels)).map (.mapping (entries.map Prod.fst))
    | .list items => (items.mapM (unfoldValue heap levels)).map .list

section

variable {heap : Heap}

/-- The tree of a container has the trees of its children below it. -/
theorem unfoldValue_container {levels : Nat} {identity : ObjectId} {trees : List LoadedTree}
    (children : List.Forall₂ (fun value tree => unfoldValue heap levels value = some tree)
      (heap.object identity).children trees) :
    ∃ tree, unfoldValue heap (levels + 1) (.container identity) = some tree ∧ tree.nodes = LoadedTree.nodesOf trees + 1 := by
  rw [unfoldValue]
  cases object : heap.object identity with
  | mapping entries =>
    rw [object] at children
    exact ⟨_, congrArg (Option.map _) (mapM_eq_some.mpr children), rfl⟩
  | list items =>
    rw [object] at children
    exact ⟨_, congrArg (Option.map _) (mapM_eq_some.mpr children), rfl⟩

/-- A tree is less deep than there were levels to unfold it. -/
theorem depth_unfoldValue {levels : Nat} {value : LoadedValue} {tree : LoadedTree}
    (unfolds : unfoldValue heap levels value = some tree) : tree.depth < levels := by
  induction levels generalizing value tree with
  | zero => cases unfolds
  | succ levels ih =>
    have below : ∀ {values : List LoadedValue} {trees : List LoadedTree},
        values.mapM (unfoldValue heap levels) = some trees → LoadedTree.depthBelow trees ≤ levels := by
      intro values trees unfolds
      apply LoadedTree.depthBelow_le
      intro child member
      obtain ⟨value, -, isChild⟩ := exists_of_forall₂_right (mapM_eq_some.mp unfolds) member
      exact ih isChild
    cases value with
    | scalar value =>
      cases unfolds
      exact Nat.succ_pos _
    | container identity =>
      rw [unfoldValue] at unfolds
      split at unfolds
      · obtain ⟨trees, children, rfl⟩ := Option.map_eq_some_iff.mp unfolds
        exact Nat.lt_succ_of_le (below children)
      · obtain ⟨trees, children, rfl⟩ := Option.map_eq_some_iff.mp unfolds
        exact Nat.lt_succ_of_le (below children)

/-- More levels do not change what a value unfolds to. -/
theorem unfoldValue_mono {levels more : Nat} (enough : levels ≤ more) {value : LoadedValue} {tree : LoadedTree}
    (unfolds : unfoldValue heap levels value = some tree) : unfoldValue heap more value = some tree := by
  induction levels generalizing more value tree with
  | zero => cases unfolds
  | succ levels ih =>
    obtain ⟨others, rfl⟩ := Nat.exists_eq_add_of_le' (Nat.one_le_iff_ne_zero.mpr (show more ≠ 0 by omega))
    have below : ∀ {values : List LoadedValue} {trees : List LoadedTree},
        values.mapM (unfoldValue heap levels) = some trees → values.mapM (unfoldValue heap others) = some trees := by
      intro values trees unfolds
      rw [mapM_eq_some] at unfolds ⊢
      exact unfolds.imp fun _ _ isTree => ih (by omega) isTree
    cases value with
    | scalar value => exact unfolds
    | container identity =>
      rw [unfoldValue] at unfolds ⊢
      split at unfolds
      · obtain ⟨trees, children, rfl⟩ := Option.map_eq_some_iff.mp unfolds
        exact congrArg (Option.map _) (below children)
      · obtain ⟨trees, children, rfl⟩ := Option.map_eq_some_iff.mp unfolds
        exact congrArg (Option.map _) (below children)

/-! ## What is accepted -/

/-- The levels that are left below a pending value. -/
def PendingValue.levels (pending : PendingValue) : Nat :=
  maxDepth + 1 - pending.depth

/-- Whatever is accepted unfolds on every place of the stack, and all of it together is within the node limit. -/
theorem unfolds_of_validatePending {stack : List PendingValue} {nodes : Nat} (within : nodes ≤ maxNodes)
    (accepted : validatePending heap stack nodes = .ok ()) :
    ∃ trees, List.Forall₂ (fun pending tree => unfoldValue heap pending.levels pending.value = some tree) stack trees ∧
      nodes + LoadedTree.nodesOf trees ≤ maxNodes := by
  induction stack, nodes using validatePending.induct heap with
  | case1 nodes => exact ⟨[], .nil, within⟩
  | case2 pending stack nodes tooMany =>
    rw [validatePending, if_pos tooMany] at accepted
    cases accepted
  | case3 pending stack nodes few tooDeep =>
    rw [validatePending, if_neg few, if_pos tooDeep] at accepted
    cases accepted
  | case4 pending stack nodes few shallow value isScalar ih =>
    rw [validatePending, if_neg few, if_neg shallow, isScalar] at accepted
    obtain ⟨trees, unfolds, bound⟩ := ih (by omega) accepted
    have levels : pending.levels = (maxDepth - pending.depth) + 1 := by
      unfold PendingValue.levels
      omega
    refine ⟨.leaf value :: trees, .cons ?_ unfolds, ?_⟩
    · rw [levels, isScalar, unfoldValue]
    · rw [LoadedTree.nodesOf, LoadedTree.nodes]
      omega
  | case5 pending stack nodes few shallow identity isContainer recursive =>
    rw [validatePending, if_neg few, if_neg shallow, isContainer] at accepted
    dsimp only at accepted
    rw [if_pos recursive] at accepted
    cases accepted
  | case6 pending stack nodes few shallow identity isContainer fresh nested ih =>
    rw [validatePending, if_neg few, if_neg shallow, isContainer] at accepted
    dsimp only at accepted
    rw [if_neg fresh] at accepted
    obtain ⟨trees, unfolds, bound⟩ := ih (by omega) accepted
    obtain ⟨front, back, rfl, reversed, others⟩ := forall₂_append_left unfolds
    have levels : pending.levels = (maxDepth - pending.depth) + 1 := by
      unfold PendingValue.levels
      omega
    -- the children were pushed one level deeper, the last one on top
    have nestedLevels : ∀ child, (nested child).levels = maxDepth - pending.depth := by
      intro child
      show maxDepth + 1 - (pending.depth + 1) = _
      omega
    have children : List.Forall₂ (fun value tree => unfoldValue heap (maxDepth - pending.depth) value = some tree)
        (heap.object identity).children front.reverse := by
      rw [← List.reverse_reverse front, List.forall₂_reverse_iff, List.forall₂_map_left_iff] at reversed
      refine reversed.imp ?_
      intro child tree isTree
      rw [← nestedLevels child]
      exact isTree
    obtain ⟨tree, isTree, count⟩ := unfoldValue_container children
    refine ⟨tree :: back, .cons ?_ others, ?_⟩
    · rw [levels, isContainer, isTree]
    · rw [LoadedTree.nodesOf_append] at bound
      rw [LoadedTree.nodesOf_reverse] at count
      rw [LoadedTree.nodesOf]
      omega

theorem unfolds_of_validateTree {root : LoadedValue} (accepted : validateTree heap root = .ok ()) :
    ∃ tree, unfoldValue heap (maxDepth + 1) root = some tree ∧ tree.depth ≤ maxDepth ∧ tree.nodes ≤ maxNodes := by
  obtain ⟨trees, unfolds, bound⟩ := unfolds_of_validatePending (Nat.zero_le _) accepted
  obtain ⟨tree, rest, isTree, none, rfl⟩ := List.forall₂_cons_left_iff.mp unfolds
  refine ⟨tree, isTree, Nat.le_of_lt_succ (depth_unfoldValue isTree), ?_⟩
  rw [LoadedTree.nodesOf] at bound
  omega

/-! ## What is converted -/

/-- The conversion returns, with JSON exactly for a tree of JSON values. -/
def Converts (tree : LoadedTree) (result : Option (Except Text Json)) : Prop :=
  ∃ outcome, result = some outcome ∧ ((∃ json, outcome = .ok json) ↔ tree.IsJson) ∧
    ∀ json, outcome = .ok json → json.WellFormed

theorem converts_scalar (value : LoadedScalar) (path : Text) : Converts (.leaf value) (some (jsonScalar path value)) := by
  refine ⟨_, rfl, ?_, ?_⟩
  · unfold LoadedTree.IsJson
    cases value with
    | float number => cases number <;> simp [jsonScalar, LoadedTree.isPlain]
    | none | text | bool | int | other => simp [jsonScalar, LoadedTree.isPlain]
  · intro json converted
    cases value with
    | float number =>
      cases number with
      | none => cases converted
      | some number =>
        cases converted
        trivial
    | other => cases converted
    | none | text | bool | int =>
      cases converted
      trivial

section

variable {convert : Text → LoadedValue → Option (Except Text Json)}

theorem converts_items {items : List LoadedValue} {trees : List LoadedTree}
    (each : List.Forall₂ (fun item tree => ∀ path, Converts tree (convert path item)) items trees) (path : Text)
    (index : Nat) : ∃ outcome, jsonItems convert path index items = some outcome ∧
      ((∃ values, outcome = .ok values) ↔ LoadedTree.AreJson trees) ∧
      ∀ values, outcome = .ok values → Json.WellFormedItems values := by
  induction each generalizing index with
  | nil =>
    refine ⟨_, rfl, iff_of_true ⟨[], rfl⟩ trivial, ?_⟩
    intro values converted
    cases converted
    trivial
  | @cons item tree items trees first _ ih =>
    obtain ⟨outcome, isOutcome, ok_iff, wellFormed⟩ := first (path ++ "/" ++ Text.ofNat index)
    obtain ⟨later, isLater, later_iff, laterWellFormed⟩ := ih (index + 1)
    rw [jsonItems, isOutcome, Option.bind_eq_bind, Option.bind_some, LoadedTree.AreJson, ← ok_iff, ← later_iff]
    cases outcome with
    | error error =>
      refine ⟨_, rfl, iff_of_false ?_ ?_, ?_⟩
      · rintro ⟨values, converted⟩
        cases converted
      · rintro ⟨⟨value, converted⟩, -⟩
        cases converted
      · intro values converted
        cases converted
    | ok value =>
      dsimp only
      rw [isLater]
      refine ⟨_, rfl, ?_, ?_⟩
      · rw [exists_map_eq_ok]
        exact (and_iff_right ⟨value, rfl⟩).symm
      · intro values converted
        cases later with
        | error error => cases converted
        | ok others =>
          cases converted
          exact ⟨wellFormed value rfl, laterWellFormed others rfl⟩

theorem converts_entries {entries : List (LoadedScalar × LoadedValue)} {trees : List LoadedTree}
    (each : List.Forall₂ (fun entry tree => ∀ path, Converts tree (convert path entry.2)) entries trees) (path : Text) :
    ∃ outcome, jsonEntries convert path entries = some outcome ∧
      ((∃ fields, outcome = .ok fields) ↔
        (entries.map Prod.fst).all LoadedScalar.isText = true ∧ LoadedTree.AreJson trees) ∧
      ∀ fields, outcome = .ok fields → Json.WellFormedFields fields ∧
        fields.map (fun field => LoadedScalar.text field.1) = entries.map Prod.fst := by
  induction each with
  | nil =>
    refine ⟨_, rfl, iff_of_true ⟨[], rfl⟩ ⟨rfl, trivial⟩, ?_⟩
    intro fields converted
    cases converted
    exact ⟨trivial, rfl⟩
  | @cons entry tree entries trees first _ ih =>
    obtain ⟨key, item⟩ := entry
    obtain ⟨later, isLater, later_iff, laterWellFormed⟩ := ih
    cases key with
    | text key =>
      obtain ⟨outcome, isOutcome, ok_iff, wellFormed⟩ := first (path ++ "/" ++ key)
      have isText : ((LoadedScalar.text key, item).1 :: entries.map Prod.fst).all LoadedScalar.isText =
          (entries.map Prod.fst).all LoadedScalar.isText := rfl
      rw [jsonEntries, isOutcome, Option.bind_eq_bind, Option.bind_some, LoadedTree.AreJson, List.map_cons, isText, ← ok_iff,
        and_left_comm, ← later_iff]
      cases outcome with
      | error error =>
        refine ⟨_, rfl, iff_of_false ?_ ?_, ?_⟩
        · rintro ⟨values, converted⟩
          cases converted
        · rintro ⟨⟨value, converted⟩, -⟩
          cases converted
        · intro values converted
          cases converted
      | ok value =>
        dsimp only
        rw [isLater]
        refine ⟨_, rfl, ?_, ?_⟩
        · rw [exists_map_eq_ok]
          exact (and_iff_right ⟨value, rfl⟩).symm
        · intro fields converted
          cases later with
          | error error => cases converted
          | ok others =>
            cases converted
            obtain ⟨others, keys⟩ := laterWellFormed others rfl
            exact ⟨⟨wellFormed value rfl, others⟩, congrArg (LoadedScalar.text key :: ·) keys⟩
    | none | bool | int | float | other =>
      refine ⟨_, rfl, iff_of_false ?_ ?_, ?_⟩
      · rintro ⟨fields, converted⟩
        cases converted
      · rintro ⟨allText, -⟩
        cases allText
      · intro fields converted
        cases converted

end

/-- Where a value unfolds, it is converted without deeper calls. -/
theorem converts_jsonValue {levels : Nat} {value : LoadedValue} {tree : LoadedTree}
    (unfolds : unfoldValue heap levels value = some tree) (path : Text) : Converts tree (jsonValue heap levels path value) := by
  induction levels generalizing value tree path with
  | zero => cases unfolds
  | succ levels ih =>
    cases value with
    | scalar value =>
      cases unfolds
      exact converts_scalar value path
    | container identity =>
      rw [unfoldValue] at unfolds
      rw [jsonValue]
      cases object : heap.object identity with
      | mapping entries =>
        rw [object] at unfolds
        obtain ⟨trees, children, rfl⟩ := Option.map_eq_some_iff.mp unfolds
        have each : List.Forall₂ (fun entry tree => ∀ path, Converts tree (jsonValue heap levels path entry.2)) entries trees := by
          refine (List.forall₂_map_left_iff.mp (mapM_eq_some.mp children)).imp ?_
          exact fun entry tree isTree path => ih isTree path
        obtain ⟨outcome, isOutcome, ok_iff, wellFormed⟩ := converts_entries each path
        refine ⟨outcome.map .object, congrArg (Option.map _) isOutcome, ?_, ?_⟩
        · rw [LoadedTree.IsJson, ← ok_iff, exists_map_eq_ok]
        · intro json converted
          cases outcome with
          | error error => cases converted
          | ok fields =>
            cases converted
            obtain ⟨fieldsWellFormed, keys⟩ := wellFormed fields rfl
            have distinct := heap.distinct identity entries object
            have allText : (fields.map fun field => LoadedScalar.text field.1).filter LoadedScalar.isText =
                fields.map fun field => LoadedScalar.text field.1 := by
              rw [List.filter_eq_self, List.forall_mem_map]
              exact fun _ _ => rfl
            rw [← keys, allText] at distinct
            refine ⟨?_, fieldsWellFormed⟩
            exact (List.Nodup.of_map LoadedScalar.text (by rw [List.map_map]; exact distinct))
      | list items =>
        rw [object] at unfolds
        obtain ⟨trees, children, rfl⟩ := Option.map_eq_some_iff.mp unfolds
        have each : List.Forall₂ (fun item tree => ∀ path, Converts tree (jsonValue heap levels path item)) items trees :=
          (mapM_eq_some.mp children).imp fun item tree isTree path => ih isTree path
        obtain ⟨outcome, isOutcome, ok_iff, wellFormed⟩ := converts_items each path 0
        refine ⟨outcome.map .array, congrArg (Option.map _) isOutcome, ?_, ?_⟩
        · rw [LoadedTree.IsJson, ← ok_iff, exists_map_eq_ok]
        · intro json converted
          cases outcome with
          | error error => cases converted
          | ok values =>
            cases converted
            exact wellFormed values rfl

/-- What `_validate_tree` accepts unfolds to a finite tree within the limits, on which `_json_value` returns: JSON where
the tree has text keys and plain leaves only, and an error everywhere else. -/
theorem structured_input_bounded {root : LoadedValue} (accepted : validateTree heap root = .ok ()) :
    ∃ tree : LoadedTree, tree.depth ≤ maxDepth ∧ tree.nodes ≤ maxNodes ∧ ∀ levels, maxDepth < levels →
      unfoldValue heap levels root = some tree ∧ Converts tree (jsonValue heap levels "$" root) := by
  obtain ⟨tree, isTree, depthBound, nodesBound⟩ := unfolds_of_validateTree accepted
  refine ⟨tree, depthBound, nodesBound, ?_⟩
  intro levels enough
  have unfolds := unfoldValue_mono enough isTree
  exact ⟨unfolds, converts_jsonValue unfolds "$"⟩

end

/-! ## Examples -/

theorem validatePending_scalar {heap : Heap} {value : LoadedScalar} {depth nodes : Nat} {ancestors : List ObjectId}
    {stack : List PendingValue} (few : nodes < maxNodes) (shallow : depth ≤ maxDepth) :
    validatePending heap (⟨.scalar value, depth, ancestors⟩ :: stack) nodes = validatePending heap stack (nodes + 1) := by
  rw [validatePending, if_neg (by omega), if_neg (Nat.not_lt.mpr shallow)]

theorem validatePending_container {heap : Heap} {identity : ObjectId} {depth nodes : Nat} {ancestors : List ObjectId}
    {stack : List PendingValue} (few : nodes < maxNodes) (shallow : depth ≤ maxDepth) (fresh : identity ∉ ancestors) :
    validatePending heap (⟨.container identity, depth, ancestors⟩ :: stack) nodes = validatePending heap
      (((heap.object identity).children.map fun child => ⟨child, depth + 1, identity :: ancestors⟩).reverse ++ stack)
      (nodes + 1) := by
  rw [validatePending, if_neg (by omega), if_neg (Nat.not_lt.mpr shallow)]
  dsimp only
  rw [if_neg fresh]

/-- A list that stands under two keys, beside two dates that are keys. -/
def sharedHeap : Heap where
  object identity :=
    if identity = 0 then .mapping [(.text "first", .container 1), (.text "second", .container 1),
      (.other "date", .scalar .none), (.other "date", .scalar .none)]
    else .list []
  distinct identity entries isMapping := by
    split at isMapping
    · cases isMapping
      decide
    · cases isMapping

theorem structured_input_bounded_shared :
    ∃ tree : LoadedTree, tree.depth ≤ maxDepth ∧ tree.nodes ≤ maxNodes ∧ ∀ levels, maxDepth < levels →
      unfoldValue sharedHeap levels (.container 0) = some tree ∧
        Converts tree (jsonValue sharedHeap levels "$" (.container 0)) := by
  have accepted : validateTree sharedHeap (.container 0) = .ok () := by
    unfold validateTree
    rw [validatePending_container (by decide) (by decide) (by decide)]
    show validatePending sharedHeap [⟨.scalar .none, 1, [0]⟩, ⟨.scalar .none, 1, [0]⟩, ⟨.container 1, 1, [0]⟩,
      ⟨.container 1, 1, [0]⟩] 1 = _
    rw [validatePending_scalar (by decide) (by decide), validatePending_scalar (by decide) (by decide),
      validatePending_container (by decide) (by decide) (by decide)]
    show validatePending sharedHeap [⟨.container 1, 1, [0]⟩] 4 = _
    rw [validatePending_container (by decide) (by decide) (by decide)]
    show validatePending sharedHeap [] 5 = _
    rw [validatePending]
  exact structured_input_bounded accepted

/-- `released: 2024-01-01`, which the loader reads as a date. -/
def datedHeap : Heap where
  object identity := if identity = 0 then .mapping [(.text "released", .scalar (.other "date"))] else .list []
  distinct identity entries isMapping := by
    split at isMapping
    · cases isMapping
      decide
    · cases isMapping

/-- A document with a date is accepted, and its conversion raises. -/
theorem not_structured_input_is_json : ¬ ∀ heap root, validateTree heap root = .ok () →
    ∃ levels json, jsonValue heap levels "$" root = some (.ok json) := by
  intro converts
  have accepted : validateTree datedHeap (.container 0) = .ok () := by
    unfold validateTree
    rw [validatePending_container (by decide) (by decide) (by decide)]
    show validatePending datedHeap [⟨.scalar (.other "date"), 1, [0]⟩] 1 = _
    rw [validatePending_scalar (by decide) (by decide), validatePending]
  obtain ⟨levels, json, converted⟩ := converts datedHeap (.container 0) accepted
  cases levels with
  | zero => cases converted
  | succ levels =>
    cases levels with
    | zero => cases converted
    | succ levels => cases converted

end Mcplica.Parsers
