import Mcplica.Compilers.InputMapping
import Mcplica.Library.Outcome
import Mcplica.Runtime.Requests

/-! # Styles

What OpenAPI's styles make of a value, in the terms of the operation's parameters, and that `build_request` writes the
arguments of a compiled tool so. -/

namespace Mcplica.Runtime

open Mcplica.Library Mcplica.Contracts Mcplica.Compilers

/-! ## The styles -/

def scalarText : Json → Option Text
  | .null => some []
  | .bool true => some "true"
  | .bool false => some "false"
  | .string value => some value
  | .number _ literal => some literal
  | .array _ | .object _ => none

/-- A value as the styles see it. -/
inductive Shape where
  | text (text : Text)
  | list (texts : List Text)
  | pairs (items : List (Text × Text))

def pairM (make : Text → Option Text) (item : Text × Text) : Option (Text × Text) := do
  let name ← make item.1
  let value ← make item.2
  return (name, value)

namespace Shape

def mapM (make : Text → Option Text) : Shape → Option Shape
  | text value => (make value).map text
  | list texts => (texts.mapM make).map list
  | pairs items => (items.mapM (pairM make)).map pairs

/-- The `simple` style. -/
def simple (explode : Bool) : Shape → Text
  | text value => value
  | list texts => Text.join "," texts
  | pairs items =>
    if explode then Text.join "," (items.map fun item => item.1 ++ '=' :: item.2) else Text.join "," (flattened items)

/-- The styles of a query, each with the pairs that it sends. -/
def query (name style : Text) (explode : Bool) : Shape → Option (List (Text × Text))
  | text value => if (styleDelimiter style).isSome then some [(name, value)] else none
  | list texts =>
    if style = "form" && explode then some (texts.map fun value => (name, value))
    else (styleDelimiter style).map fun delimiter => [(name, Text.join delimiter texts)]
  | pairs items =>
    if style = "deepObject" then some (items.map fun item => (name ++ '[' :: item.1 ++ [']'], item.2))
    else if style = "form" && explode then some items
    else (styleDelimiter style).map fun delimiter => [(name, Text.join delimiter (flattened items))]

end Shape

def pairTexts (fields : JsonObject) : Option (List (Text × Text)) :=
  (Text.sortedBy Prod.fst fields).mapM fun field => (scalarText field.2).map fun text => (field.1, text)

def shape : Json → Option Shape
  | .array items => (items.mapM scalarText).map .list
  | .object fields => (pairTexts fields).map .pairs
  | value => (scalarText value).map .text

section

variable (platform : Platform)

/-- In a path, the items of an array are shown as Python shows them. -/
def pathShape : Json → Option Shape
  | .array items => some (.list (items.map (pythonStr platform)))
  | value => shape value

def style (parameter : CanonicalParameter) : Text :=
  let given := parameter.style.getD []
  if given = [] then (if parameter.location = .query then "form" else "simple") else given

def explode (parameter : CanonicalParameter) : Bool :=
  parameter.explode.getD (decide (parameter.location = .query))

/-- Paths and headers have one style. -/
def ifSimple (parameter : CanonicalParameter) (shape : Option Shape) : Option Shape :=
  if style parameter = "simple" then shape else none

def allowedHeader (name : Text) : Option Unit :=
  if Contracts.forbiddenCallerHeaders.contains (name.lower platform.unicode) then none else some ()

def pathSent (parameter : CanonicalParameter) (value : Json) : Option (Text × Text) := do
  let shape ← ifSimple parameter (pathShape platform value)
  let encoded ← shape.mapM fun text => (encodePathValue text).toOption
  return (parameter.name, encoded.simple (explode parameter))

def querySent (parameter : CanonicalParameter) (value : Json) : Option (List QueryParameter) := do
  let shape ← shape value
  let pairs ← shape.query parameter.name (style parameter) (explode parameter)
  return pairs.map fun pair => ⟨pair.1, pair.2, parameter.allowReserved⟩

def headerSent (parameter : CanonicalParameter) (value : Json) : Option (List (Text × Text)) := do
  let _ ← allowedHeader platform parameter.name
  let shape ← ifSimple parameter (shape value)
  let text := shape.simple (explode parameter)
  let _ ← (validateHeader parameter.name text).toOption
  return [(parameter.name, text)]

end

/-! ## The code's serialization -/

section

variable {platform : Platform}

theorem toOption_scalar (field : Text) (value : Json) : (scalar platform field value).toOption = scalarText value := by
  cases value with
  | bool value => cases value <;> rfl
  | _ => rfl

theorem toOption_arrayValues (field : Text) (items : List Json) :
    (arrayValues platform field items).toOption = items.mapM scalarText := by
  unfold arrayValues
  rw [toOption_mapM]
  simp only [toOption_scalar]

theorem toOption_objectValues (field : Text) (fields : JsonObject) :
    (objectValues platform field fields).toOption = pairTexts fields := by
  unfold objectValues pairTexts
  rw [toOption_mapM]
  refine congrArg (List.mapM · _) (funext fun item => ?_)
  rw [toOption_bind, toOption_scalar]
  cases scalarText item.2 <;> rfl

variable {parameter : CanonicalParameter} {mapping : ParameterMapping}

theorem serialization_of_carries (carries : Carries parameter mapping) :
    serialization mapping = (style parameter, explode parameter) := by
  have sameStyle := carries.style
  have sameExplode := carries.explode
  have target := carries.target
  unfold serialization style explode
  rw [sameStyle, sameExplode]
  cases isLocation : parameter.location with
  | cookie =>
    rw [isLocation] at target
    cases target
  | path | query | header =>
    rw [isLocation] at target
    rw [← Option.some.inj target]
    rfl

theorem toOption_headerValue (carries : Carries parameter mapping) (value : Json) :
    (headerValue platform mapping value).toOption =
      (ifSimple parameter (shape value)).map (Shape.simple (explode parameter)) := by
  unfold headerValue ifSimple
  rw [serialization_of_carries carries]
  dsimp only
  rw [toOption_bind, toOption_ensure]
  by_cases simple : style parameter = "simple"
  · simp only [simple, decide_true, if_true, Option.bind_some]
    cases value with
    | array items =>
      rw [toOption_bind, toOption_arrayValues]
      simp only [shape, Option.map_map]
      cases items.mapM scalarText <;> rfl
    | object fields =>
      rw [toOption_bind, toOption_objectValues]
      simp only [shape, Option.map_map]
      cases pairTexts fields with
      | none => rfl
      | some items => cases explode parameter <;> simp [Shape.simple, toOption_pure]
    | null | bool | number | string =>
      rw [toOption_scalar]
      simp only [shape, Option.map_map]
      cases scalarText _ <;> rfl
  · rw [decide_eq_false simple, if_neg simple]
    rfl

theorem toOption_queryValues (carries : Carries parameter mapping) (value : Json) :
    (queryValues platform mapping value).toOption = querySent parameter value := by
  unfold queryValues querySent
  rw [serialization_of_carries carries, carries.name, carries.allowReserved]
  cases value with
  | array items =>
    rw [toOption_bind, toOption_arrayValues]
    simp only [shape]
    cases items.mapM scalarText with
    | none => rfl
    | some texts =>
      simp only [Option.bind_some, Option.map_some, Option.bind_eq_bind, Shape.query]
      split
      · simp [toOption_pure]
      · rw [toOption_bind, toOption_obtain?]
        cases styleDelimiter (style parameter) <;> rfl
  | object fields =>
    rw [toOption_bind, toOption_objectValues]
    simp only [shape]
    cases pairTexts fields with
    | none => rfl
    | some items =>
      simp only [Option.bind_some, Option.map_some, Option.bind_eq_bind, Shape.query]
      split
      · simp [toOption_pure]
      · split
        · simp [toOption_pure]
        · rw [toOption_bind, toOption_obtain?]
          cases styleDelimiter (style parameter) <;> rfl
  | null | bool | number | string =>
    rw [toOption_bind, toOption_ensure]
    simp only [shape, toOption_bind, toOption_scalar, Shape.query]
    cases (styleDelimiter (style parameter)).isSome <;> cases scalarText _ <;> rfl

/-- Encoding the components of pairs is encoding the pairs. -/
theorem mapM_flattened (make : Text → Option Text) (items : List (Text × Text)) :
    (flattened items).mapM make = (items.mapM (pairM make)).map flattened := by
  induction items with
  | nil => rfl
  | cons item rest ih =>
    have split : flattened (item :: rest) = item.1 :: item.2 :: flattened rest := rfl
    rw [split, List.mapM_cons, List.mapM_cons, ih, List.mapM_cons, pairM]
    cases make item.1 with
    | none => rfl
    | some name =>
      cases make item.2 with
      | none => rfl
      | some value => cases rest.mapM (pairM make) <;> rfl

theorem toOption_pathValue (carries : Carries parameter mapping) (value : Json) :
    (pathValue platform mapping value).toOption.map (fun text => (parameter.name, text)) =
      pathSent platform parameter value := by
  unfold pathValue pathSent ifSimple
  rw [serialization_of_carries carries]
  dsimp only
  rw [toOption_bind, toOption_ensure]
  by_cases simple : style parameter = "simple"
  · simp only [simple, decide_true, if_true, Option.bind_some]
    cases value with
    | array items =>
      rw [toOption_bind, toOption_mapM]
      simp only [pathShape, Option.bind_eq_bind, Option.bind_some, Shape.mapM, List.mapM_map, Function.comp_def]
      cases items.mapM fun item => (encodePathValue (pythonStr platform item)).toOption <;> rfl
    | object fields =>
      rw [toOption_bind, toOption_objectValues]
      simp only [pathShape, shape]
      cases pairTexts fields with
      | none => rfl
      | some items =>
        simp only [Option.bind_some, Option.map_some, Option.bind_eq_bind, Shape.mapM]
        cases explode parameter with
        | true =>
          have each : (fun item : Text × Text => (do
              let name ← encodePathValue item.1
              let value ← encodePathValue item.2
              return name ++ '=' :: value : Except Text Text).toOption) = fun item =>
              (pairM (fun text => (encodePathValue text).toOption) item).map fun pair => pair.1 ++ '=' :: pair.2 := by
            funext item
            rw [toOption_bind, pairM]
            cases (encodePathValue item.1).toOption with
            | none => rfl
            | some name =>
              rw [Option.bind_some, toOption_bind]
              cases (encodePathValue item.2).toOption <;> rfl
          rw [if_pos rfl, toOption_bind, toOption_mapM]
          rw [each, mapM_map_option]
          cases items.mapM (pairM fun text => (encodePathValue text).toOption) <;> rfl
        | false =>
          rw [if_neg Bool.false_ne_true, toOption_bind, toOption_mapM, mapM_flattened]
          cases items.mapM (pairM fun text => (encodePathValue text).toOption) <;> rfl
    | null | bool | number | string =>
      simp only [pathShape, shape, toOption_bind, toOption_scalar]
      cases scalarText _ with
      | none => rfl
      | some text =>
        simp only [Option.bind_some, Option.map_some, Option.bind_eq_bind, Shape.mapM]
        cases (encodePathValue text).toOption <;> rfl
  · rw [decide_eq_false simple, if_neg simple]
    rfl

end

end Mcplica.Runtime
