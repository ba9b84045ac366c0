import Mcplica.Library.Outcome
import Mcplica.Parsers.Pointers

/-! # What the references of an inventory denote

The nodes that references of API Inventory schemas denote and the rewriting of schemas, told by the keywords of JSON
Schema and the tokens of a pointer, and when the definitions of a materialized schema are faithful to them. -/

namespace Mcplica.Parsers

open Mcplica.Library
open Mcplica.Contracts
open Mcplica.Domain

/-! ## Keywords -/

/-- The keywords of JSON Schema with one schema, with a list of schemas and with schemas under names. -/
def oneSchemaKeywords : List Text :=
  ["additionalProperties", "contains", "contentSchema", "else", "if", "items", "not", "propertyNames", "then",
    "unevaluatedItems", "unevaluatedProperties"]

def schemaListKeywords : List Text :=
  ["allOf", "anyOf", "oneOf", "prefixItems"]

def namedSchemasKeywords : List Text :=
  ["$defs", "definitions", "dependentSchemas", "patternProperties", "properties"]

/-- Where schemas stand in a schema; everything else is data. -/
def jsonSchemaDescent : Descent where
  intoLists := false
  position keyword :=
    if keyword ∈ oneSchemaKeywords then .schema
    else if keyword ∈ schemaListKeywords then .schemas
    else if keyword ∈ namedSchemasKeywords then .schemaMap
    else .data

theorem inventoryDescent_eq : inventoryDescent = jsonSchemaDescent := by
  unfold inventoryDescent jsonSchemaDescent
  simp only [List.contains_iff_mem]
  rfl

/-! ## References -/

section Meaning

variable (unicode : Unicode) (digest : Text → Text) (schemas : List (Text × JsonObject)) (sourceVersionId : Uuid)

/-- The node under the tokens in a resource. -/
def nodeAt (root : JsonObject) (tokens : List Text) : Option Json :=
  (walk (inventoryIndex unicode) tokens (.object root)).map Prod.snd

/-- The place under the tokens in the resource that a reference stands in. -/
def placeInside (context : InventoryContext) (fragment : Text) (tokens : List Text) : Option InventoryPlace :=
  (nodeAt unicode context.root tokens).map fun node => ⟨context, '#' :: fragment, '#' :: fragment, node⟩

/-- The place under the tokens in a schema of the inventory. -/
def placeOfSchema (name fragment : Text) (nested : List Text) : Option InventoryPlace :=
  (schemas.lookup name).bind fun root => (nodeAt unicode root nested).map fun node =>
    ⟨⟨root, '#' :: Text.renderPointer ["schemas", name]⟩, '#' :: fragment, '#' :: Text.renderPointer nested, node⟩

/-- The place that a reference denotes: by the tokens of its fragment, in the schema of the inventory that they name or
in the resource the reference stands in. -/
def denotedPlace (context : InventoryContext) (reference : Text) : Option InventoryPlace :=
  (urldefrag unicode reference).bind fun (url, fragment) =>
    if url ≠ [] then none
    else (decodedTokens fragment).bind fun tokens =>
      match tokens with
      | first :: name :: nested =>
        if first = "schemas" then placeOfSchema unicode schemas name fragment nested
        else placeInside unicode context fragment tokens
      | _ => placeInside unicode context fragment tokens

/-- What is hashed for the key of a definition: the source version, the resource and the pointer as it is written. -/
def hashedPlace (place : InventoryPlace) : Text :=
  Text.ofUuid sourceVersionId ++ (":" : Text) ++ place.context.resourceId ++ (":" : Text) ++ place.pointer

def generatedKey (place : InventoryPlace) : Text :=
  ("mcplica_ref_" : Text) ++ digest (hashedPlace sourceVersionId place)

/-- A schema with the references in it replaced by the ones to their definitions. -/
def rewritten (context : InventoryContext) (schema : JsonObject) : Json :=
  rewrite jsonSchemaDescent (fun reference =>
    ((denotedPlace unicode schemas context reference).map (generatedKey digest sourceVersionId)).getD []) (.object schema)

/-- The places that the references of a schema denote, in the order in which they stand there; `none` where one of them
does not resolve. -/
def denotedPlaces (context : InventoryContext) (schema : JsonObject) : Option (List InventoryPlace) := do
  let references ← schemaReferences jsonSchemaDescent (.object schema)
  references.mapM (denotedPlace unicode schemas context)

/-- The references between the places: what stands at a place has to be an object. -/
def inventoryGraph : ReferenceGraph InventoryPlace Text (Text × Text) Json where
  key := generatedKey digest sourceVersionId
  mark place := (place.context.resourceId, place.nestedPointer)
  references place :=
    match place.node with
    | .object schema => denotedPlaces unicode schemas place.context schema
    | _ => none
  value place :=
    match place.node with
    | .object schema => rewritten unicode digest schemas sourceVersionId place.context schema
    | _ => .null
  placeholder := .object []

/-- The places that are reached from a schema by following its references. -/
def ReachedFrom (location : Text) (schema : JsonObject) (place : InventoryPlace) : Prop :=
  ∃ places, denotedPlaces unicode schemas ⟨schema, location⟩ schema = some places ∧
    (inventoryGraph unicode digest schemas sourceVersionId).Reaches places place

/-- The definition of every reference is the rewriting of the node it denotes. -/
def FaithfulDefinitions (location : Text) (schema result : JsonObject) : Prop :=
  ∀ place, ReachedFrom unicode digest schemas sourceVersionId location schema place →
    ∃ node, place.node = .object node ∧
      Json.get (definitionsOf result) (generatedKey digest sourceVersionId place) =
        some (rewritten unicode digest schemas sourceVersionId place.context node)

/-- The digest tells the places that are reached apart. -/
def DigestsApart (location : Text) (schema : JsonObject) : Prop :=
  ∀ first second, ReachedFrom unicode digest schemas sourceVersionId location schema first →
    ReachedFrom unicode digest schemas sourceVersionId location schema second →
    digest (hashedPlace sourceVersionId first) = digest (hashedPlace sourceVersionId second) → first = second

/-- Depth first through the references, no spelling is met for the first time inside a place of the same resource
and nested pointer, unless the empty schema stands there. -/
def UnmixedSpellings (location : Text) (schema : JsonObject) : Prop :=
  ∀ places, denotedPlaces unicode schemas ⟨schema, location⟩ schema = some places →
    ∃ keys, (inventoryGraph unicode digest schemas sourceVersionId).Clear [] [] places keys

end Meaning

/-! ## The parser's references -/

section Parser

variable {unicode : Unicode} {digest : Text → Text} {schemas : List (Text × JsonObject)} {sourceVersionId : Uuid}
  {location reference fragment shown : Text} {tokens : List Text} {context : InventoryContext} {place : InventoryPlace}
  {schema : JsonObject}

theorem pointerToken_eq (token : Text) : pointerToken token = Text.escapeToken token :=
  (Text.escapeToken_eq_replace token).symm

theorem toOption_pointerTokens : (pointerTokens ('#' :: fragment)).toOption = decodedTokens fragment := by
  unfold pointerTokens decodedTokens
  cases fragment with
  | nil => rfl
  | cons first rest =>
    have starts : Text.startsWith ('#' :: first :: rest) "#" = true := by rfl
    simp only [starts, if_true, List.tail_cons]
    by_cases isSlash : first = '/'
    · subst isSlash
      rfl
    · simp [isSlash, referenceResolutionError, Except.toOption]

theorem nestedPointer_eq (nested : List Text) :
    (if nested = [] then ("#" : Text) else ("#/" : Text) ++ Text.join "/" (nested.map pointerToken)) =
      '#' :: Text.renderPointer nested := by
  cases nested with
  | nil => rfl
  | cons first rest =>
    rw [if_neg (List.cons_ne_nil _ _)]
    show '#' :: '/' :: Text.join "/" ((first :: rest).map pointerToken) = '#' :: Text.renderPointer (first :: rest)
    congr 1
    induction rest generalizing first with
    | nil => simp [Text.join, Text.renderPointer, pointerToken_eq]
    | cons second rest ih =>
      rw [List.map_cons, List.map_cons, Text.join_cons_cons]
      have onward := ih second
      rw [List.map_cons] at onward
      show '/' :: (pointerToken first ++ ('/' :: Text.join "/" (pointerToken second :: rest.map pointerToken))) = _
      rw [onward, pointerToken_eq]
      rfl

theorem toOption_traversePointer {root : JsonObject} :
    (traversePointer unicode shown tokens (.object root)).toOption = nodeAt unicode root tokens := by
  refine Option.ext fun value => ?_
  rw [toOption_eq_some, traversePointer_eq_ok, nodeAt, Option.map_eq_some_iff]
  constructor
  · rintro ⟨place, walked⟩
    exact ⟨_, walked, rfl⟩
  · rintro ⟨node, walked, rfl⟩
    exact ⟨node.1, walked⟩

theorem toOption_placeInside :
    (do
      let node ← traversePointer unicode ('#' :: fragment) tokens (.object context.root)
      return (⟨context, '#' :: fragment, '#' :: fragment, node⟩ : InventoryPlace)).toOption =
      placeInside unicode context fragment tokens := by
  rw [toOption_bind, toOption_traversePointer]
  exact (Option.map_eq_bind ..).symm

theorem resourceId_eq (name : Text) :
    ("#/schemas/" : Text) ++ pointerToken name = '#' :: Text.renderPointer ["schemas", name] := by
  rw [pointerToken_eq]
  show _ = '#' :: '/' :: (Text.escapeToken "schemas" ++ ('/' :: Text.escapeToken name ++ []))
  rw [List.append_nil]
  rfl

/-- The parser locates exactly the place that a reference denotes. -/
theorem toOption_inventoryLocate :
    (inventoryLocate unicode schemas context reference).toOption = denotedPlace unicode schemas context reference := by
  have isPointer (fragment : Text) : (if fragment = [] then ("#" : Text) else '#' :: fragment) = '#' :: fragment := by
    split
    · rename_i isEmpty
      rw [isEmpty]
      rfl
    · rfl
  unfold inventoryLocate denotedPlace
  cases splits : urldefrag unicode reference with
  | none => rfl
  | some parted =>
    obtain ⟨url, fragment⟩ := parted
    show (if url ≠ [] then _ else _ : Except SourceError InventoryPlace).toOption = if url ≠ [] then none else _
    rw [isPointer]
    split
    · rfl
    · rw [toOption_bind, toOption_pointerTokens]
      refine congrArg _ (funext fun tokens => ?_)
      cases tokens with
      | nil => exact toOption_placeInside
      | cons first others =>
        cases others with
        | nil => exact toOption_placeInside
        | cons name nested =>
          by_cases isNamed : first = "schemas"
          · simp only [namedSchema?, if_pos isNamed]
            unfold placeOfSchema
            cases schemas.lookup name with
            | none => rfl
            | some root =>
              show (traversePointer unicode ('#' :: fragment) nested (.object root) >>= fun node => _).toOption = _
              rw [toOption_bind, toOption_traversePointer, nestedPointer_eq, resourceId_eq]
              exact (Option.map_eq_bind ..).symm
          · simp only [namedSchema?, if_neg isNamed]
            exact toOption_placeInside

theorem inventoryKey_eq : inventoryKey digest sourceVersionId = generatedKey digest sourceVersionId := by
  funext place
  have colon : (":" : Text) = [':'] := rfl
  unfold inventoryKey generatedKey hashedPlace
  simp only [colon, List.append_assoc, List.cons_append, List.nil_append]

theorem keyOf_inventoryParser :
    (inventoryParser unicode digest schemas sourceVersionId location).keyOf context = fun reference =>
      ((denotedPlace unicode schemas context reference).map (generatedKey digest sourceVersionId)).getD [] := by
  funext reference
  rw [← toOption_inventoryLocate, ← inventoryKey_eq]
  have isLocate : (inventoryParser unicode digest schemas sourceVersionId location).locate context reference =
      inventoryLocate unicode schemas context reference := rfl
  unfold Materializer.keyOf
  rw [isLocate]
  cases inventoryLocate unicode schemas context reference with
  | error error => rfl
  | ok place => rfl

theorem rewriting_inventoryParser :
    (inventoryParser unicode digest schemas sourceVersionId location).rewriting context (.object schema) =
      rewritten unicode digest schemas sourceVersionId context schema := by
  unfold Materializer.rewriting rewritten
  rw [keyOf_inventoryParser, ← inventoryDescent_eq]
  rfl

theorem placesOf_inventoryParser :
    (inventoryParser unicode digest schemas sourceVersionId location).placesOf context (.object schema) =
      denotedPlaces unicode schemas context schema := by
  unfold Materializer.placesOf denotedPlaces
  rw [← inventoryDescent_eq]
  have located : (fun reference => (inventoryLocate unicode schemas context reference).toOption) =
      denotedPlace unicode schemas context := funext fun reference => toOption_inventoryLocate
  rw [← located]
  rfl

/-- The graph that the parser walks through is the one of what its references denote. -/
theorem graph_inventoryParser : (inventoryParser unicode digest schemas sourceVersionId location).graph =
    inventoryGraph unicode digest schemas sourceVersionId := by
  unfold Materializer.graph inventoryGraph
  rw [ReferenceGraph.mk.injEq]
  refine ⟨inventoryKey_eq, rfl, funext fun place => ?_, funext fun place => ?_, rfl⟩
  · obtain ⟨context, pointer, nestedPointer, node⟩ := place
    cases node with
    | object schema => exact placesOf_inventoryParser
    | null | bool | number | string | array => rfl
  · obtain ⟨context, pointer, nestedPointer, node⟩ := place
    cases node with
    | object schema => exact rewriting_inventoryParser
    | null | bool | number | string | array => rfl

/-! ## When the definitions are faithful -/

variable {fuel : Nat} {result : JsonObject}

/-- A definition that is in the table was made from an object. -/
theorem exists_object_of_entry {places : List InventoryPlace} {definitions : JsonObject}
    (run : ReferenceGraph.Explores (inventoryGraph unicode digest schemas sourceVersionId) fuel [] [] places definitions)
    (entry : (generatedKey digest sourceVersionId place,
      (inventoryGraph unicode digest schemas sourceVersionId).value place) ∈ definitions) :
    ∃ node, place.node = .object node := by
  have isObject : ∃ fields, (inventoryGraph unicode digest schemas sourceVersionId).value place = .object fields := by
    rcases run.entry_cases List.nodup_nil _ entry with impossible | isPlaceholder | ⟨other, references, read, same, -⟩
    · cases impossible
    · exact ⟨[], isPlaceholder⟩
    · rw [(Prod.mk.inj same).2]
      obtain ⟨context, pointer, nestedPointer, node⟩ := other
      cases node with
      | object fields => exact ⟨_, rfl⟩
      | null | bool | number | string | array => cases read
  obtain ⟨fields, isObject⟩ := isObject
  obtain ⟨context, pointer, nestedPointer, node⟩ := place
  cases node with
  | object schema => exact ⟨schema, rfl⟩
  | null | bool | number | string | array => cases isObject

/-- API Inventory schemas are materialized faithfully exactly when no schema is reached again, while it is being
built, through another spelling. -/
theorem inventory_definitions_faithful_iff
    (materialized : materializeInventorySchema unicode digest schemas sourceVersionId location fuel schema = .ok result)
    (apart : DigestsApart unicode digest schemas sourceVersionId location schema) :
    FaithfulDefinitions unicode digest schemas sourceVersionId location schema result ↔
      UnmixedSpellings unicode digest schemas sourceVersionId location schema := by
  obtain ⟨fields, definitions, walked, generated⟩ := materializeInventorySchema_eq_ok materialized
  obtain ⟨places, arePlaces, -, run, faithful⟩ := Materializer.walk_spec walked
  rw [placesOf_inventoryParser] at arePlaces
  rw [graph_inventoryParser] at run faithful
  have reached_iff (place : InventoryPlace) : ReachedFrom unicode digest schemas sourceVersionId location schema place ↔
      (inventoryGraph unicode digest schemas sourceVersionId).Reaches places place := by
    constructor
    · rintro ⟨others, areOthers, reached⟩
      rw [arePlaces] at areOthers
      cases areOthers
      exact reached
    · exact fun reached => ⟨places, arePlaces, reached⟩
  have unmixed_iff : UnmixedSpellings unicode digest schemas sourceVersionId location schema ↔
      ∃ keys, (inventoryGraph unicode digest schemas sourceVersionId).Clear [] [] places keys := by
    constructor
    · exact fun unmixed => unmixed places arePlaces
    · rintro clear others areOthers
      rw [arePlaces] at areOthers
      cases areOthers
      exact clear
  have apartKeys : ReferenceGraph.KeysApart (inventoryGraph unicode digest schemas sourceVersionId) places :=
    fun first second firstReached secondReached sameKey =>
      apart first second ((reached_iff first).mpr firstReached) ((reached_iff second).mpr secondReached)
        (List.append_cancel_left sameKey)
  rw [unmixed_iff]
  constructor
  · intro isFaithful
    rcases run.clear_or_left List.nodup_nil with clear | ⟨place, reached, -, entry, standsThere⟩
    · exact ⟨_, clear⟩
    · obtain ⟨node, isNode, isDefined⟩ := isFaithful place ((reached_iff place).mpr reached)
      have found := lookup_of_mem (run.extends List.nodup_nil).distinct entry
      have isValue : (inventoryGraph unicode digest schemas sourceVersionId).value place =
          rewritten unicode digest schemas sourceVersionId place.context node := by
        simp only [inventoryGraph, isNode]
      rw [generated (generatedKey digest sourceVersionId place) (List.mem_map_of_mem entry)] at isDefined
      exact absurd (isValue.trans (Option.some.inj (isDefined.symm.trans found))) standsThere
  · intro clear place reached
    have entry := (faithful apartKeys).mpr clear place ((reached_iff place).mp reached)
    obtain ⟨node, isNode⟩ := exists_object_of_entry run entry
    have isValue : (inventoryGraph unicode digest schemas sourceVersionId).value place =
        rewritten unicode digest schemas sourceVersionId place.context node := by
      simp only [inventoryGraph, isNode]
    refine ⟨node, isNode, ?_⟩
    rw [generated (generatedKey digest sourceVersionId place) (List.mem_map_of_mem entry), ← isValue]
    exact lookup_of_mem (run.extends List.nodup_nil).distinct entry

end Parser

/-! ## Two inventories -/

/-- A node of a list refers to its own resource, an item of a tree to the tree by its name. -/
def nodeSchema : JsonObject :=
  [Json.entry "properties" (.object [Json.entry "next" (.object [Json.entry "$ref" (.text "#")])])]

def treeSchema : JsonObject :=
  [Json.entry "type" (.text "array"), Json.entry "items" (.object [Json.entry "$ref" (.text "#/schemas/Tree")])]

def recursiveSchemas : List (Text × JsonObject) :=
  [("Node", nodeSchema), ("Tree", treeSchema)]

/-- The digests of the references of the examples, which differ in length. -/
def recursiveDigest (text : Text) : Text :=
  if text.length = 66 then "a461c0d1fcde111e60a9" else "235ba20612583fe812fd"

def bodyLocation : Text :=
  "#/operations/0/requestBody/schema"

/-- The node by its name, and as it calls itself. -/
def nodePlace : InventoryPlace :=
  ⟨⟨nodeSchema, "#/schemas/Node"⟩, "#/schemas/Node", "#", .object nodeSchema⟩

def itselfPlace : InventoryPlace :=
  ⟨⟨nodeSchema, "#/schemas/Node"⟩, "#", "#", .object nodeSchema⟩

def treePlace : InventoryPlace :=
  ⟨⟨treeSchema, "#/schemas/Tree"⟩, "#/schemas/Tree", "#", .object treeSchema⟩

/-- A node that refers to itself as `#` and is reached by its name: the definition of `#` stays empty. -/
theorem self_reference_stays_empty : ∃ result,
    materializeInventorySchema asciiUnicode recursiveDigest recursiveSchemas 1 bodyLocation 4
      [Json.entry "$ref" (.text "#/schemas/Node")] = .ok result ∧
    ¬ FaithfulDefinitions asciiUnicode recursiveDigest recursiveSchemas 1 bodyLocation
      [Json.entry "$ref" (.text "#/schemas/Node")] result := by
  have evaluated : ((materializeInventorySchema asciiUnicode recursiveDigest recursiveSchemas 1 bodyLocation 4
        [Json.entry "$ref" (.text "#/schemas/Node")]).toOption.bind fun result =>
      some (decide ((Json.get (definitionsOf result) (generatedKey recursiveDigest 1 itselfPlace)).map Json.canonical =
        some (rewritten asciiUnicode recursiveDigest recursiveSchemas 1 itselfPlace.context nodeSchema).canonical))) =
      some false := by
    decide +kernel
  simp only [Option.bind_eq_some_iff, Option.some.injEq, decide_eq_false_iff_not] at evaluated
  obtain ⟨result, materialized, differs⟩ := evaluated
  have atStart : denotedPlaces asciiUnicode recursiveSchemas ⟨[Json.entry "$ref" (.text "#/schemas/Node")], bodyLocation⟩
      [Json.entry "$ref" (.text "#/schemas/Node")] = some [nodePlace] := rfl
  have inNode : (inventoryGraph asciiUnicode recursiveDigest recursiveSchemas 1).references nodePlace =
      some [itselfPlace] := rfl
  refine ⟨result, toOption_eq_some.mp materialized, fun faithful => differs ?_⟩
  obtain ⟨node, isNode, isDefined⟩ := faithful itselfPlace
    ⟨_, atStart, .next (.start List.mem_cons_self) inNode List.mem_cons_self⟩
  obtain rfl : nodeSchema = node := Json.object.inj isNode
  rw [isDefined]
  rfl

theorem tree_definitions_faithful : ∃ result,
    materializeInventorySchema asciiUnicode recursiveDigest recursiveSchemas 1 bodyLocation 4
      [Json.entry "$ref" (.text "#/schemas/Tree")] = .ok result ∧
    FaithfulDefinitions asciiUnicode recursiveDigest recursiveSchemas 1 bodyLocation
      [Json.entry "$ref" (.text "#/schemas/Tree")] result := by
  obtain ⟨result, materialized⟩ : ∃ result,
      materializeInventorySchema asciiUnicode recursiveDigest recursiveSchemas 1 bodyLocation 4
        [Json.entry "$ref" (.text "#/schemas/Tree")] = .ok result :=
    exists_ok_of_isOk (by decide +kernel)
  have atStart : denotedPlaces asciiUnicode recursiveSchemas ⟨[Json.entry "$ref" (.text "#/schemas/Tree")], bodyLocation⟩
      [Json.entry "$ref" (.text "#/schemas/Tree")] = some [treePlace] := rfl
  have inTree : (inventoryGraph asciiUnicode recursiveDigest recursiveSchemas 1).references treePlace =
      some [treePlace] := rfl
  -- The tree is the only place that is reached, so no two keys can coincide.
  have reached_tree : ∀ place, ReachedFrom asciiUnicode recursiveDigest recursiveSchemas 1 bodyLocation
      [Json.entry "$ref" (.text "#/schemas/Tree")] place → place = treePlace := by
    rintro place ⟨places, arePlaces, reached⟩
    obtain rfl : [treePlace] = places := Option.some.inj (atStart.symm.trans arePlaces)
    induction reached with
    | start member => exact List.mem_singleton.mp member
    | next _ read member ih =>
      subst ih
      obtain rfl := Option.some.inj (inTree.symm.trans read)
      exact List.mem_singleton.mp member
  refine ⟨result, materialized, (inventory_definitions_faithful_iff materialized ?_).mpr ?_⟩
  · intro first second firstReached secondReached _
    rw [reached_tree first firstReached, reached_tree second secondReached]
  · intro places arePlaces
    obtain rfl : [treePlace] = places := Option.some.inj (atStart.symm.trans arePlaces)
    exact ⟨_, .fresh List.not_mem_nil List.not_mem_nil inTree (.seen List.mem_cons_self .done) .done⟩

end Mcplica.Parsers
