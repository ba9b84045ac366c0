import Mcplica.Library.Coupling
import Mcplica.Parsers.OpenApi

/-! # Further dependencies

A document that parses goes on parsing, to the same API, when more documents are captured beside it: a parse only
looks up the dependencies it refers to. -/

namespace Mcplica.Parsers

open Mcplica.Library
open Mcplica.Contracts
open Mcplica.Domain

/-! ## The walk through a schema -/

section Visit

variable {σ : Type} {descent : Descent} {invalid : SourceError} {follow other : Text → σ → Except SourceError (Text × σ)}

theorem visitReference_extends (each : ∀ reference state, Extends (follow reference state) (other reference state))
    (state : σ) (reference : Option Json) :
    Extends (visitReference invalid follow state reference) (visitReference invalid other state reference) := by
  unfold visitReference
  split
  · exact Extends.refl _
  · exact Extends.refl _
  · exact (each _ _).bind fun _ => Extends.refl _
  · exact Extends.refl _

mutual

theorem visit_extends (each : ∀ reference state, Extends (follow reference state) (other reference state)) :
    ∀ node state, Extends (visit descent invalid follow node state) (visit descent invalid other node state)
  | .array items, state => by
    simp only [visit]
    exact extends_ite ((visitItems_extends each items state).bind fun _ => Extends.refl _) (Extends.refl _)
  | .object fields, state => by
    simp only [visit]
    refine (visitReference_extends each state _).bind fun result => ?_
    exact (visitFields_extends each fields result.2).bind fun _ => Extends.refl _
  | .null, state => Extends.refl _
  | .bool _, state => Extends.refl _
  | .number _ _, state => Extends.refl _
  | .string _, state => Extends.refl _

theorem visitItems_extends (each : ∀ reference state, Extends (follow reference state) (other reference state)) :
    ∀ items state, Extends (visitItems descent invalid follow items state) (visitItems descent invalid other items state)
  | [], state => Extends.refl _
  | item :: rest, state => by
    simp only [visitItems]
    refine (visit_extends each item state).bind fun result => ?_
    exact (visitItems_extends each rest result.2).bind fun _ => Extends.refl _

theorem visitFields_extends (each : ∀ reference state, Extends (follow reference state) (other reference state)) :
    ∀ fields state, Extends (visitFields descent invalid follow fields state) (visitFields descent invalid other fields state)
  | [], state => Extends.refl _
  | (key, item) :: rest, state => by
    simp only [visitFields]
    refine extends_ite (visitFields_extends each rest state) ?_
    have later := fun (result : Json × σ) =>
      (visitFields_extends each rest result.2).bind fun others => Extends.refl (pure ((key, result.1) :: others.1, others.2))
    cases descent.position key with
    | schema => exact (visit_extends each item state).bind later
    | schemas => exact (visitList_extends each item state).bind later
    | schemaMap => exact (visitMap_extends each item state).bind later
    | data => exact (Extends.refl _).bind later

theorem visitList_extends (each : ∀ reference state, Extends (follow reference state) (other reference state)) :
    ∀ item state, Extends (visitList descent invalid follow item state) (visitList descent invalid other item state)
  | .array items, state => by
    simp only [visitList]
    exact (visitItems_extends each items state).bind fun _ => Extends.refl _
  | .object _, state => Extends.refl _
  | .null, state => Extends.refl _
  | .bool _, state => Extends.refl _
  | .number _ _, state => Extends.refl _
  | .string _, state => Extends.refl _

theorem visitMap_extends (each : ∀ reference state, Extends (follow reference state) (other reference state)) :
    ∀ item state, Extends (visitMap descent invalid follow item state) (visitMap descent invalid other item state)
  | .object entries, state => by
    simp only [visitMap]
    exact (visitEntries_extends each entries state).bind fun _ => Extends.refl _
  | .array _, state => Extends.refl _
  | .null, state => Extends.refl _
  | .bool _, state => Extends.refl _
  | .number _ _, state => Extends.refl _
  | .string _, state => Extends.refl _

theorem visitEntries_extends (each : ∀ reference state, Extends (follow reference state) (other reference state)) :
    ∀ entries state, Extends (visitEntries descent invalid follow entries state)
      (visitEntries descent invalid other entries state)
  | [], state => Extends.refl _
  | (name, item) :: rest, state => by
    simp only [visitEntries]
    refine (visit_extends each item state).bind fun result => ?_
    exact (visitEntries_extends each rest result.2).bind fun _ => Extends.refl _

end

end Visit

namespace Materializer

variable {Context Place Identity : Type} [DecidableEq Identity] {parser : Materializer Context Place Identity}
  {locate : Context → Text → Except SourceError Place}

/-- More references may be located. -/
theorem follow_extends (wider : ∀ context reference, Extends (parser.locate context reference) (locate context reference))
    (fuel : Nat) (building : List Identity) (context : Context) (reference : Text) (definitions : JsonObject) :
    Extends (parser.follow fuel building context reference definitions)
      ({ parser with locate }.follow fuel building context reference definitions) := by
  induction fuel using Nat.strong_induction_on generalizing building context reference definitions with
  | _ fuel ih =>
    unfold follow
    refine (wider context reference).bind fun place => ?_
    refine extends_ite (Extends.refl _) (extends_ite (Extends.refl _) ?_)
    cases fuel with
    | zero => exact Extends.refl _
    | succ smaller =>
      refine (Extends.refl _).bind fun schema => ?_
      have walked := fun node state => @visit_extends _ parser.descent parser.invalid
        (parser.follow smaller (parser.identity place :: building) (parser.context place))
        ({ parser with locate }.follow smaller (parser.identity place :: building) (parser.context place))
        (fun inner definitions => ih smaller (by omega) _ _ inner definitions) node state
      exact (walked (.object schema) _).mapError.bind fun _ => Extends.refl _

theorem walk_extends (wider : ∀ context reference, Extends (parser.locate context reference) (locate context reference))
    (fuel : Nat) (building : List Identity) (context : Context) (node : Json) (definitions : JsonObject) :
    Extends (parser.walk fuel building context node definitions)
      ({ parser with locate }.walk fuel building context node definitions) :=
  (visit_extends (fun reference state => follow_extends wider fuel building context reference state) node definitions).mapError

end Materializer

/-! ## The parts of a document -/

section Parse

variable {libraries : ParserLibraries} {scope : ReferenceScope} {fuel : Nat} {sourceFormat : SourceFormat}
  {target : Text → JsonObject → Uuid → Except SourceError ReferenceTarget}
  (wider : ∀ reference document version, Extends (scope.target reference document version) (target reference document version))

include wider

theorem resolve_extends (seen : List (Uuid × Text)) (value : Json) (document : JsonObject) (version : Uuid) (place : Text) :
    Extends (scope.resolve fuel seen value document version place)
      ({ scope with target }.resolve fuel seen value document version place) := by
  induction fuel using Nat.strong_induction_on generalizing seen value document version place with
  | _ fuel ih =>
    unfold ReferenceScope.resolve
    refine Extends.mapError ?_
    cases value with
    | object fields =>
      simp only
      split
      · exact Extends.refl _
      · refine (wider _ _ _).bind fun found => extends_ite (Extends.refl _) ?_
        cases fuel with
        | zero => exact Extends.refl _
        | succ smaller => exact (Extends.refl _).bind fun node => ih smaller (by omega) _ _ _ _ _
      · exact Extends.refl _
    | _ => exact Extends.refl _

theorem materializeSchema_extends (value : Json) (context : OpenApiContext) (location : Text) :
    Extends (materializeSchema libraries.sha256 scope fuel value context location)
      (materializeSchema libraries.sha256 { scope with target } fuel value context location) := by
  unfold materializeSchema
  refine Extends.mapError ((Extends.refl _).bind fun root => ?_)
  have walked := @Materializer.walk_extends _ _ _ _ (openApiParser libraries.sha256 scope location)
    (fun context reference => target reference context.document context.sourceVersionId)
    (fun context reference => wider reference context.document context.sourceVersionId) fuel [] context (.object root) []
  exact walked.bind fun _ => Extends.refl _

theorem schemaOf_extends (value : Json) (context : OpenApiContext) (location : Text) :
    Extends (schemaOf libraries scope fuel sourceFormat value context location)
      (schemaOf libraries { scope with target } fuel sourceFormat value context location) :=
  (materializeSchema_extends wider _ context location).bind fun _ => Extends.refl _

theorem mediaTypes_extends (content : Option Json) (context : OpenApiContext) (location : Text) :
    Extends (mediaTypes libraries scope fuel sourceFormat content context location)
      (mediaTypes libraries { scope with target } fuel sourceFormat content context location) := by
  unfold mediaTypes
  split
  · exact Extends.refl _
  · exact Extends.refl _
  · refine (extends_mapM fun entry => ?_).bind fun _ => Extends.refl _
    unfold mediaTypeOf
    split
    · exact (schemaOf_extends wider _ context _).bind fun _ => Extends.refl _
    · exact Extends.refl _
  · exact Extends.refl _

theorem canonicalParameter_extends (entry : (Text × ParameterLocation) × Resolved) :
    Extends (canonicalParameter libraries scope fuel sourceFormat entry)
      (canonicalParameter libraries { scope with target } fuel sourceFormat entry) := by
  unfold canonicalParameter
  refine (Extends.refl _).bind fun _ => Extends.bind ?_ fun _ => Extends.refl _
  unfold parameterSchema
  split
  · exact Extends.refl _
  · exact schemaOf_extends wider _ _ _

theorem parametersOf_extends (item operation : Resolved) (inherited : List Json) (operationPointer : Text) :
    Extends (parametersOf libraries scope fuel sourceFormat item operation inherited operationPointer)
      (parametersOf libraries { scope with target } fuel sourceFormat item operation inherited operationPointer) := by
  unfold parametersOf
  refine (Extends.refl _).bind fun own => Extends.bind ?_ fun merged => ?_
  · refine extends_foldlM _ fun merged input => ?_
    exact (resolve_extends wider _ _ _ _ _).bind fun _ => Extends.refl _
  · exact (extends_mapM (canonicalParameter_extends wider)).bind fun _ => Extends.refl _

theorem requestBodyOf_extends (operation : Resolved) :
    Extends (requestBodyOf libraries scope fuel sourceFormat operation)
      (requestBodyOf libraries { scope with target } fuel sourceFormat operation) := by
  unfold requestBodyOf
  split
  · exact Extends.refl _
  · refine (resolve_extends wider _ _ _ _ _).bind fun body => ?_
    exact (mediaTypes_extends wider _ _ _).bind fun _ => Extends.refl _

theorem responsesOf_extends (operation : Resolved) (operationPointer : Text) :
    Extends (responsesOf libraries scope fuel sourceFormat operation operationPointer)
      (responsesOf libraries { scope with target } fuel sourceFormat operation operationPointer) := by
  unfold responsesOf
  split
  · refine (extends_mapM fun entry => ?_).bind fun _ => Extends.refl _
    refine (resolve_extends wider _ _ _ _ _).bind fun response => ?_
    exact (mediaTypes_extends wider _ _ _).bind fun _ => Extends.refl _
  · exact Extends.refl _

theorem operationBody_extends (path : PathContext) (head : OperationHead) :
    Extends (operationBody libraries scope fuel sourceFormat path head)
      (operationBody libraries { scope with target } fuel sourceFormat path head) := by
  unfold operationBody
  refine (parametersOf_extends wider _ _ _ _).bind fun _ => (requestBodyOf_extends wider _).bind fun _ => ?_
  exact (responsesOf_extends wider _ _).bind fun _ => Extends.refl _

theorem parsePath_extends (routing : ProjectRoutingConfiguration) (globalServerKeys : List Text) (state : OperationsState)
    (entry : Text × Json) :
    Extends (parsePath libraries scope fuel sourceFormat routing globalServerKeys state entry)
      (parsePath libraries { scope with target } fuel sourceFormat routing globalServerKeys state entry) := by
  unfold parsePath
  refine (resolve_extends wider _ _ _ _ _).bind fun item => (Extends.refl _).bind fun parameters => ?_
  refine (Extends.refl _).bind fun registered => extends_foldlM _ fun state method => ?_
  unfold parseMethod
  simp only
  split
  · exact Extends.refl _
  · refine Extends.bind ?_ fun read => (Extends.refl _).bind fun selected => ?_
    · exact (resolve_extends wider _ _ _ _ _).bind fun _ => Extends.refl _
    · exact (operationBody_extends wider _ _).bind fun _ => Extends.refl _

theorem componentSchemas_extends (components : JsonObject) :
    Extends (componentSchemas libraries scope fuel sourceFormat components)
      (componentSchemas libraries { scope with target } fuel sourceFormat components) := by
  unfold componentSchemas
  refine (Extends.refl _).bind fun raw => (extends_mapM fun entry => ?_).bind fun _ => Extends.refl _
  exact (schemaOf_extends wider _ _ _).bind fun _ => Extends.refl _

theorem securitySchemes_extends (components : JsonObject) (baseUrl : Option Text) :
    Extends (securitySchemes libraries scope fuel components baseUrl)
      (securitySchemes libraries { scope with target } fuel components baseUrl) := by
  unfold securitySchemes
  refine (Extends.refl _).bind fun raw => extends_mapM fun entry => ?_
  exact (resolve_extends wider _ _ _ _ _).bind fun _ => Extends.refl _

/-- The whole parse, when the validator of the specification says the same. -/
theorem parseScope_extends {load other : Text → Option JsonObject}
    (sameHeader : readHeader libraries load scope.rootSourceVersionId scope.rootDocument =
      readHeader libraries other scope.rootSourceVersionId scope.rootDocument) (request : ParseRequest) :
    Extends (parseScope libraries scope load fuel request) (parseScope libraries { scope with target } other fuel request) := by
  unfold parseScope
  refine (extends_of_eq sameHeader).bind fun header => (Extends.refl _).bind fun servers => ?_
  refine (Extends.refl _).bind fun components => (securitySchemes_extends wider _ _).bind fun schemes => ?_
  refine (componentSchemas_extends wider _).bind fun schemas => Extends.bind ?_ fun state => Extends.refl _
  exact extends_foldlM _ fun state entry => parsePath_extends wider _ _ state entry

end Parse

/-! ## Documents without external references -/

/-- Every `$ref` of the document points into the document. -/
def SelfContained (unicode : Unicode) (document : JsonObject) : Prop :=
  ∀ reference, Json.string reference ∈ Json.references (.object document) →
    ∃ fragment, urldefrag unicode reference = some ([], fragment)

/-- The validator of the specification loads a document only for a reference out of the one it is given. -/
def LoadsReferencedOnly (libraries : ParserLibraries) : Prop :=
  ∀ sourceFormat document load other, SelfContained libraries.unicode document →
    libraries.validateSpecification sourceFormat document load = libraries.validateSpecification sourceFormat document other

theorem referenceTarget_extends {unicode : Unicode} {root : JsonObject} {version : Uuid} (external : ExternalDocuments)
    (reference : Text) (document : JsonObject) (sourceVersionId : Uuid) :
    Extends ((OpenApiReferenceResolver.mk root version []).referenceTarget unicode reference document sourceVersionId)
      ((OpenApiReferenceResolver.mk root version external).referenceTarget unicode reference document sourceVersionId) := by
  unfold OpenApiReferenceResolver.referenceTarget
  refine (Extends.refl _).bind fun parts => extends_ite (Extends.refl _) (Extends.bind ?_ fun _ => Extends.refl _)
  -- Nothing is found among no documents.
  intro found isFound
  obtain ⟨parsed, isParsed, -⟩ := bind_eq_ok.mp isFound
  rw [OpenApiReferenceResolver.externalDocument_eq_ok (orValueError_eq_ok.mp isParsed), List.findSome?_eq_some_iff] at isFound
  obtain ⟨_, _, _, -, impossible, -⟩ := isFound
  cases impossible

/-- What a document without external references parses to does not depend on the documents captured beside it. -/
theorem parseOpenApi_extends {libraries : ParserLibraries} {fuel : Nat} {request : ParseRequest} {document : JsonObject}
    (loads : LoadsReferencedOnly libraries) (selfContained : SelfContained libraries.unicode document)
    (external : ExternalDocuments) : Extends (parseOpenApi libraries fuel request [] document)
      (parseOpenApi libraries fuel request external document) := by
  have sameHeader : readHeader libraries (loadCaptured libraries.unicode []) request.sourceVersionId document =
      readHeader libraries (loadCaptured libraries.unicode external) request.sourceVersionId document := by
    unfold readHeader validateOpenApiSpec
    simp only [loads _ document (loadCaptured libraries.unicode []) (loadCaptured libraries.unicode external) selfContained]
  let alone : ReferenceScope := OpenApiReferenceResolver.scope ⟨document, request.sourceVersionId, []⟩ libraries.unicode
  have wider : ∀ reference document version, Extends (alone.target reference document version) _ :=
    referenceTarget_extends external
  exact parseScope_extends wider sameHeader request

end Mcplica.Parsers
