import Mcplica.Runtime.Requests

/-! # Elements of arrays and objects

The three serializers of `build_request` side by side: which text each of them makes of the elements of an argument. -/

namespace Mcplica.Runtime

open Mcplica.Library Mcplica.Contracts

/-! ## What the elements should become -/

/-- The text of a scalar; an array or an object has none. -/
def elementText : Json → Option Text
  | .null => some []
  | .bool true => some "true"
  | .bool false => some "false"
  | .number _ literal => some literal
  | .string value => some value
  | .array _ | .object _ => none

section

variable (platform : Platform)

def notScalar (field : Text) : Text :=
  ("Field " : Text) ++ field.repr platform.unicode ++ (" cannot be serialized as a scalar" : Text)

/-- The texts of the elements of an array, or the error for a nested one. -/
def elementTexts (field : Text) (items : List Json) : Except Text (List Text) :=
  obtain? (items.mapM elementText) (notScalar platform field)

/-- The texts of the members of an object in the order of their names. -/
def memberTexts (field : Text) (fields : JsonObject) : Except Text (List (Text × Text)) :=
  obtain? ((Text.sortedBy Prod.fst fields).mapM fun (name, value) => (elementText value).map (name, ·))
    (notScalar platform field)

/-- How an array of texts is written into a query. -/
def arrayQuery (parameter : ParameterMapping) (texts : List Text) : Except Text (List QueryParameter) :=
  let (style, explode) := serialization parameter
  let made (value : Text) : QueryParameter := ⟨parameter.sourceName, value, parameter.allowReserved⟩
  if style = "form" && explode then .ok (texts.map made)
  else do
    let delimiter ← obtain? (styleDelimiter style) ("Array query parameter uses an unsupported style" : Text)
    return [made (Text.join delimiter texts)]

/-- How an object of texts is written into a query. -/
def objectQuery (parameter : ParameterMapping) (items : List (Text × Text)) : Except Text (List QueryParameter) :=
  let (style, explode) := serialization parameter
  let made (name value : Text) : QueryParameter := ⟨name, value, parameter.allowReserved⟩
  if style = "deepObject" then .ok (items.map fun (key, item) => made (parameter.sourceName ++ '[' :: key ++ [']']) item)
  else if style = "form" && explode then .ok (items.map fun (key, item) => made key item)
  else do
    let delimiter ← obtain? (styleDelimiter style) ("Object query parameter uses an unsupported style" : Text)
    return [made parameter.sourceName (Text.join delimiter (flattened items))]

/-- The components of an object that is written into a path or a header. -/
def components (explode : Bool) (encode : Text → Except Text Text) (items : List (Text × Text)) : Except Text (List Text) :=
  if explode then
    items.mapM fun (name, item) => do
      let name ← encode name
      let item ← encode item
      return name ++ '=' :: item
  else (flattened items).mapM encode

/-- The same text stands for an element in the path, before it is encoded, in the query and in a header, and a nested
element is refused in all three. -/
structure ArrayAlike (items : List Json) : Prop where
  path : ∀ parameter : ParameterMapping, (serialization parameter).1 = "simple" →
    pathValue platform parameter (.array items) = do
      let texts ← elementTexts platform parameter.toolField items
      let encoded ← texts.mapM encodePathValue
      return Text.join "," encoded
  query : ∀ parameter : ParameterMapping,
    queryValues platform parameter (.array items) = elementTexts platform parameter.toolField items >>= arrayQuery parameter
  header : ∀ parameter : ParameterMapping, (serialization parameter).1 = "simple" →
    headerValue platform parameter (.array items) = do
      let texts ← elementTexts platform parameter.toolField items
      return Text.join "," texts

structure ObjectAlike (fields : JsonObject) : Prop where
  path : ∀ parameter : ParameterMapping, (serialization parameter).1 = "simple" →
    pathValue platform parameter (.object fields) = do
      let items ← memberTexts platform parameter.toolField fields
      let encoded ← components (serialization parameter).2 encodePathValue items
      return Text.join "," encoded
  query : ∀ parameter : ParameterMapping,
    queryValues platform parameter (.object fields) = memberTexts platform parameter.toolField fields >>= objectQuery parameter
  header : ∀ parameter : ParameterMapping, (serialization parameter).1 = "simple" →
    headerValue platform parameter (.object fields) = do
      let items ← memberTexts platform parameter.toolField fields
      let written ← components (serialization parameter).2 .ok items
      return Text.join "," written

end

/-! ## The shared helpers -/

variable {platform : Platform}

theorem scalar_eq (field : Text) (value : Json) :
    scalar platform field value = obtain? (elementText value) (notScalar platform field) := by
  cases value with
  | bool value => cases value <;> rfl
  | null | number | string | array | object => rfl

/-- A comprehension whose elements raise one error only. -/
theorem mapM_obtain? {α β : Type} {error : Text} (values : List α) (make : α → Option β) :
    values.mapM (fun value => obtain? (make value) error) = obtain? (values.mapM make) error := by
  induction values with
  | nil => rfl
  | cons value values ih =>
    rw [List.mapM_cons, List.mapM_cons, ih]
    cases make value with
    | none => rfl
    | some made => cases values.mapM make <;> rfl

theorem arrayValues_eq (field : Text) (items : List Json) :
    arrayValues platform field items = elementTexts platform field items := by
  unfold arrayValues elementTexts
  rw [← mapM_obtain?]
  exact congrArg (items.mapM ·) (funext (scalar_eq field))

theorem objectValues_eq (field : Text) (fields : JsonObject) :
    objectValues platform field fields = memberTexts platform field fields := by
  unfold objectValues memberTexts
  rw [← mapM_obtain?]
  refine congrArg ((Text.sortedBy Prod.fst fields).mapM ·) (funext fun member => ?_)
  obtain ⟨name, value⟩ := member
  show (scalar platform field value >>= fun text => .ok (name, text)) =
    obtain? ((elementText value).map (name, ·)) (notScalar platform field)
  rw [scalar_eq]
  cases elementText value <;> rfl

theorem mapM_ok {α β : Type} (values : List α) (make : α → β) :
    values.mapM (fun value => (Except.ok (make value) : Except Text β)) = .ok (values.map make) := by
  induction values with
  | nil => rfl
  | cons value values ih =>
    rw [List.mapM_cons, ih]
    rfl

/-- The members of an object become the same texts everywhere. -/
theorem objectAlike (platform : Platform) (fields : JsonObject) : ObjectAlike platform fields where
  path := by
    intro parameter simple
    unfold pathValue
    generalize serialization parameter = chosen at simple ⊢
    obtain ⟨style, explode⟩ := chosen
    obtain rfl : style = "simple" := simple
    show (objectValues platform parameter.toolField fields >>= _) = _
    rw [objectValues_eq]
    refine congrArg _ (funext fun items => ?_)
    cases explode <;> rfl
  query := by
    intro parameter
    show (objectValues platform parameter.toolField fields >>= _) = _
    rw [objectValues_eq]
    rfl
  header := by
    intro parameter simple
    unfold headerValue
    generalize serialization parameter = chosen at simple ⊢
    obtain ⟨style, explode⟩ := chosen
    obtain rfl : style = "simple" := simple
    show (objectValues platform parameter.toolField fields >>= _) = _
    rw [objectValues_eq]
    refine congrArg _ (funext fun items => ?_)
    cases explode with
    | false =>
      show _ = (((flattened items).mapM fun text => Except.ok text) >>= _)
      rw [mapM_ok, List.map_id']
      rfl
    | true =>
      show _ = ((items.mapM fun item => Except.ok (item.1 ++ '=' :: item.2)) >>= _)
      rw [mapM_ok]
      rfl

/-- The elements of an array become these texts in a query and in a header. -/
theorem arrayAlike_iff (items : List Json) : ArrayAlike platform items ↔
    ∀ parameter : ParameterMapping, (serialization parameter).1 = "simple" →
      pathValue platform parameter (.array items) = do
        let texts ← elementTexts platform parameter.toolField items
        let encoded ← texts.mapM encodePathValue
        return Text.join "," encoded := by
  refine ⟨ArrayAlike.path, fun path => ⟨path, ?_, ?_⟩⟩
  · intro parameter
    show (arrayValues platform parameter.toolField items >>= _) = _
    rw [arrayValues_eq]
    rfl
  · intro parameter simple
    unfold headerValue
    generalize serialization parameter = chosen at simple ⊢
    obtain ⟨style, explode⟩ := chosen
    obtain rfl : style = "simple" := simple
    show (arrayValues platform parameter.toolField items >>= _) = _
    rw [arrayValues_eq]

/-! ## Arrays in the path -/

/-- What the path makes of the elements: `str`, which is Python's text of a value. -/
theorem pathValue_array {parameter : ParameterMapping} (simple : (serialization parameter).1 = "simple") (items : List Json) :
    pathValue platform parameter (.array items) =
      (items.mapM fun item => encodePathValue (pythonStr platform item)) >>= fun texts => .ok (Text.join "," texts) := by
  unfold pathValue
  generalize serialization parameter = chosen at simple ⊢
  obtain ⟨style, explode⟩ := chosen
  obtain rfl : style = "simple" := simple
  rfl

/-- Strings and numbers, whose text is the same in Python and in JSON. -/
def isVerbatim : Json → Bool
  | .string _ | .number _ _ => true
  | _ => false

/-- The values that `encode_path_value` refuses. -/
def isUnsafe (text : Text) : Bool :=
  text = "." || text = ".." || Text.includesAny text lineBreaks

def unsafeValue : Text := "Path parameter contains an unsafe value"

theorem encodePathValue_eq (text : Text) :
    encodePathValue text = if isUnsafe text then .error unsafeValue else .ok (Text.quote [] text) := by
  unfold encodePathValue ensure
  cases checked : isUnsafe text with
  | false =>
    unfold isUnsafe at checked
    rw [checked]
    rfl
  | true =>
    unfold isUnsafe at checked
    rw [checked]
    rfl

theorem elementText_of_isVerbatim {item : Json} (verbatim : isVerbatim item = true) :
    elementText item = some (pythonStr platform item) := by
  cases item with
  | string | number => rfl
  | null | bool | array | object => cases verbatim

theorem isVerbatim_of_isUnsafe {item : Json} {text : Text} (isText : elementText item = some text)
    (refused : isUnsafe text = true) : isVerbatim item = true := by
  cases item with
  | string | number => rfl
  | null =>
    cases isText
    revert refused
    decide
  | bool value =>
    cases value <;>
    · cases isText
      revert refused
      decide
  | array | object => cases isText

theorem isVerbatim_of_elementText {item : Json} (written : elementText item = some (pythonStr platform item)) :
    isVerbatim item = true := by
  cases item with
  | string | number => rfl
  | null => cases Option.some.inj written
  | bool value => cases value <;> exact absurd (Option.some.inj written) (by simp [pythonStr, pythonRepr])
  | array | object => cases written

/-- One refused element makes the whole comprehension raise that error. -/
theorem mapM_encodePathValue_of_isUnsafe {α : Type} {values : List α} {make : α → Text} {value : α} (member : value ∈ values)
    (refused : isUnsafe (make value) = true) : values.mapM (fun value => encodePathValue (make value)) = .error unsafeValue := by
  cases ran : values.mapM fun value => encodePathValue (make value) with
  | ok texts =>
    obtain ⟨text, -, isText⟩ := exists_of_mapM_source ran member
    rw [encodePathValue_eq, if_pos refused] at isText
    cases isText
  | error message =>
    obtain ⟨other, -, raised⟩ := exists_of_mapM_error ran
    rw [encodePathValue_eq] at raised
    split at raised
    · cases raised
      rfl
    · cases raised

theorem mapM_encodePathValue_of_safe {α : Type} {values : List α} {make : α → Text}
    (safe : ∀ value ∈ values, isUnsafe (make value) = false) :
    values.mapM (fun value => encodePathValue (make value)) = .ok (values.map fun value => Text.quote [] (make value)) := by
  induction values with
  | nil => rfl
  | cons value values ih =>
    rw [List.mapM_cons, encodePathValue_eq, safe value List.mem_cons_self,
      ih fun other member => safe other (List.mem_cons_of_mem value member)]
    rfl

/-- The texts of a list without nested elements. -/
theorem elementTexts_eq {items : List Json} {texts : List Text} (areTexts : items.mapM elementText = some texts) (field : Text) :
    elementTexts platform field items = .ok texts := by
  unfold elementTexts
  rw [areTexts]
  rfl

theorem forall₂_of_mapM {items : List Json} {texts : List Text} (areTexts : items.mapM elementText = some texts) :
    List.Forall₂ (fun item text => elementText item = some text) items texts := by
  induction items generalizing texts with
  | nil =>
    cases areTexts
    exact .nil
  | cons item items ih =>
    rw [List.mapM_cons] at areTexts
    simp only [Option.bind_eq_bind, Option.bind_eq_some_iff] at areTexts
    obtain ⟨text, isText, others, areOthers, same⟩ := areTexts
    cases same
    exact .cons isText (ih areOthers)

/-- Joined texts without commas determine the texts. -/
theorem join_quote_inj {lefts rights : List Text} (nonempty : lefts ≠ []) (sameLength : lefts.length = rights.length)
    (same : Text.join "," (lefts.map (Text.quote [])) = Text.join "," (rights.map (Text.quote []))) : lefts = rights := by
  have noComma (texts : List Text) : ∀ text ∈ texts.map (Text.quote []), ',' ∉ text := by
    intro text member
    obtain ⟨source, -, rfl⟩ := List.mem_map.mp member
    exact Text.not_mem_quote (by decide) (by decide) (by decide)
  have pieces (texts : List Text) (some_ : texts ≠ []) :
      (Text.join "," (texts.map (Text.quote []))).splitOn ',' = texts.map (Text.quote []) :=
    List.splitOn_intercalate ',' (noComma texts) (by simpa using some_)
  have otherNonempty : rights ≠ [] := by
    rintro rfl
    exact nonempty (List.length_eq_zero_iff.mp sameLength)
  have quoted : lefts.map (Text.quote []) = rights.map (Text.quote []) := by
    rw [← pieces lefts nonempty, same, pieces rights otherNonempty]
  have read : ∀ texts : List Text, (texts.map (Text.quote [])).map Text.unquote = texts := by
    intro texts
    rw [List.map_map]
    exact List.map_id'' (Text.unquote_quote (by decide) (by decide)) texts
  rw [← read lefts, quoted, read rights]

/-- No element is nested and one of them is refused whatever the others are. -/
def RefusedAnyway (items : List Json) : Prop :=
  (∀ item ∈ items, (elementText item).isSome = true) ∧
    ∃ item ∈ items, ∃ text, elementText item = some text ∧ isUnsafe text = true

section Items

variable {items : List Json}

theorem exists_texts (scalars : ∀ item ∈ items, (elementText item).isSome = true) :
    ∃ texts, items.mapM elementText = some texts := by
  induction items with
  | nil => exact ⟨[], rfl⟩
  | cons item items ih =>
    obtain ⟨text, isText⟩ := Option.isSome_iff_exists.mp (scalars item List.mem_cons_self)
    obtain ⟨texts, areTexts⟩ := ih fun other member => scalars other (List.mem_cons_of_mem item member)
    exact ⟨text :: texts, by simp [List.mapM_cons, isText, areTexts]⟩

theorem texts_of_isVerbatim (verbatim : ∀ item ∈ items, isVerbatim item = true) :
    items.mapM elementText = some (items.map (pythonStr platform)) := by
  induction items with
  | nil => rfl
  | cons item items ih =>
    have here : elementText item = some (pythonStr platform item) :=
      elementText_of_isVerbatim (verbatim item List.mem_cons_self)
    rw [List.mapM_cons, here, ih fun other member => verbatim other (List.mem_cons_of_mem item member)]
    rfl

/-- The code path and the expected one agree when every element is written verbatim. -/
theorem path_of_verbatim (verbatim : ∀ item ∈ items, isVerbatim item = true) (field : Text) :
    ((items.mapM fun item => encodePathValue (pythonStr platform item)) >>= fun texts => .ok (Text.join "," texts)) = (do
      let texts ← elementTexts platform field items
      let encoded ← texts.mapM encodePathValue
      return Text.join "," encoded) := by
  rw [elementTexts_eq (texts_of_isVerbatim verbatim)]
  show _ = ((items.map (pythonStr platform)).mapM encodePathValue >>= _)
  rw [List.mapM_map]
  rfl

theorem path_of_refused (refused : RefusedAnyway items) (field : Text) :
    ((items.mapM fun item => encodePathValue (pythonStr platform item)) >>= fun texts => .ok (Text.join "," texts)) = (do
      let texts ← elementTexts platform field items
      let encoded ← texts.mapM encodePathValue
      return Text.join "," encoded) := by
  obtain ⟨scalars, item, member, text, isText, isRefused⟩ := refused
  obtain ⟨texts, areTexts⟩ := exists_texts scalars
  have verbatim : elementText item = some (pythonStr platform item) :=
    elementText_of_isVerbatim (isVerbatim_of_isUnsafe isText isRefused)
  have samePython : isUnsafe (pythonStr platform item) = true := by
    rw [verbatim, Option.some.injEq] at isText
    rw [isText]
    exact isRefused
  obtain ⟨written, isWritten, isElement⟩ := exists_of_forall₂_left (forall₂_of_mapM areTexts) member
  rw [isText, Option.some.injEq] at isElement
  subst isElement
  have expected : texts.mapM encodePathValue = .error unsafeValue := 
    @mapM_encodePathValue_of_isUnsafe Text texts id text isWritten isRefused
  rw [mapM_encodePathValue_of_isUnsafe member samePython, elementTexts_eq areTexts]
  show _ = (texts.mapM encodePathValue >>= _)
  rw [expected]
  rfl

/-- An element that is not written verbatim and not refused shows in the path. -/
theorem verbatim_of_path_eq {field : Text}
    (same : ((items.mapM fun item => encodePathValue (pythonStr platform item)) >>= fun texts => .ok (Text.join "," texts)) = (do
      let texts ← elementTexts platform field items
      let encoded ← texts.mapM encodePathValue
      return Text.join "," encoded)) : (∀ item ∈ items, isVerbatim item = true) ∨ RefusedAnyway items := by
  by_cases scalars : ∀ item ∈ items, (elementText item).isSome = true
  · by_cases anyUnsafe : ∃ item ∈ items, ∃ text, elementText item = some text ∧ isUnsafe text = true
    · exact .inr ⟨scalars, anyUnsafe⟩
    obtain ⟨texts, areTexts⟩ := exists_texts scalars
    have pairs := forall₂_of_mapM areTexts
    have safe : ∀ text ∈ texts, isUnsafe text = false := by
      intro text member
      obtain ⟨item, isItem, isText⟩ := exists_of_forall₂_right pairs member
      by_contra refused
      exact anyUnsafe ⟨item, isItem, text, isText, by simpa using refused⟩
    left
    rw [elementTexts_eq areTexts] at same
    have expected : texts.mapM encodePathValue = .ok (texts.map (Text.quote [])) := 
      @mapM_encodePathValue_of_safe Text texts id safe
    have ran : ((items.mapM fun item => encodePathValue (pythonStr platform item)) >>= fun texts =>
        .ok (Text.join "," texts)) = .ok (Text.join "," (texts.map (Text.quote []))) := by
      rw [same]
      show (texts.mapM encodePathValue >>= _) = _
      rw [expected]
      rfl
    rw [bind_eq_ok] at ran
    obtain ⟨written, areWritten, sameText⟩ := ran
    have safePython : ∀ item ∈ items, isUnsafe (pythonStr platform item) = false := by
      intro item member
      by_contra refused
      rw [mapM_encodePathValue_of_isUnsafe member (by simpa using refused)] at areWritten
      cases areWritten
    rw [mapM_encodePathValue_of_safe safePython] at areWritten
    cases areWritten
    intro item member
    have nonempty : items.map (pythonStr platform) ≠ [] := by
      simpa using List.ne_nil_of_mem member
    have sameTexts : items.map (pythonStr platform) = texts := by
      refine join_quote_inj nonempty ?_ ?_
      · rw [List.length_map]
        exact pairs.length_eq
      · rw [List.map_map]
        exact Except.ok.inj sameText
    subst sameTexts
    have written : elementText item = some (pythonStr platform item) := by
      have each : ∀ item ∈ items, elementText item = some (pythonStr platform item) := by
        simpa [List.forall₂_map_right_iff, List.forall₂_same] using pairs
      exact each item member
    exact isVerbatim_of_elementText written
  · -- A nested element is refused by name everywhere else; here it is at most refused as an unsafe value.
    obtain ⟨item, member, nested⟩ : ∃ item ∈ items, (elementText item).isSome = false := by
      simpa using scalars
    have noTexts : items.mapM elementText = none := by
      cases areTexts : items.mapM elementText with
      | none => rfl
      | some texts =>
        obtain ⟨text, -, isText⟩ := exists_of_forall₂_left (forall₂_of_mapM areTexts) member
        rw [isText] at nested
        cases nested
    have refused : elementTexts platform field items = .error (notScalar platform field) := by
      unfold elementTexts
      rw [noTexts]
      rfl
    rw [refused] at same
    cases ran : items.mapM fun item => encodePathValue (pythonStr platform item) with
    | ok texts =>
      rw [ran] at same
      cases same
    | error message =>
      rw [ran] at same
      have isMessage : message = notScalar platform field := Except.error.inj same
      obtain ⟨other, -, raised⟩ := exists_of_mapM_error ran
      rw [encodePathValue_eq] at raised
      split at raised
      · have sameMessage : unsafeValue = notScalar platform field := (Except.error.inj raised).trans isMessage
        have first : ('P' : Char) = 'F' := (List.cons.inj sameMessage).1
        exact absurd first (by decide)
      · cases raised

end Items

/-- Scalars become the same text in the path, the query and a header, except that the path writes the elements of an
array as Python does: an array has only strings and numbers, or it is refused for another element of it. -/
theorem scalars_alike_iff (platform : Platform) :
    (∀ items, ArrayAlike platform items ↔ (∀ item ∈ items, isVerbatim item = true) ∨ RefusedAnyway items) ∧
      ∀ fields, ObjectAlike platform fields := by
  refine ⟨fun items => ?_, objectAlike platform⟩
  rw [arrayAlike_iff]
  constructor
  · intro alike
    let parameter : ParameterMapping := { toolField := "ids", sourceName := "ids", target := .path }
    have simple : (serialization parameter).1 = "simple" := rfl
    have same := alike parameter simple
    rw [pathValue_array simple] at same
    exact verbatim_of_path_eq same
  · intro holds parameter simple
    rw [pathValue_array simple]
    rcases holds with verbatim | refused
    · exact path_of_verbatim verbatim parameter.toolField
    · exact path_of_refused refused parameter.toolField

/-- The path of `[true]` is `True`. -/
theorem true_element_differs : ¬ ∀ items, ArrayAlike plainPlatform items := by
  intro always
  have same := (always [.bool true]).path { toolField := "ids", sourceName := "ids", target := .path } rfl
  have python : pathValue plainPlatform { toolField := "ids", sourceName := "ids", target := .path } (.array [.bool true]) =
      .ok "True" := rfl
  rw [python] at same
  exact absurd (Except.ok.inj same) (by decide)

end Mcplica.Runtime
