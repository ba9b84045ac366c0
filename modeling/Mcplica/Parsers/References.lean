import Mcplica.Contracts.Json
import Mcplica.Domain.Sources
import Mcplica.Library.Checks

/-! # References between OpenAPI documents

`OpenApiReferenceResolver`: the document a `$ref` names, and the place in it. -/

namespace Mcplica.Parsers

open Mcplica.Library
open Mcplica.Contracts
open Mcplica.Domain

structure ExternalOpenApiDocument where
  document : JsonObject
  sourceVersionId : Uuid

/-- The captured dependencies, each under all its aliases. -/
abbrev ExternalDocuments := List (Text × ExternalOpenApiDocument)

structure OpenApiReferenceResolver where
  rootDocument : JsonObject
  rootSourceVersionId : Uuid
  external : ExternalDocuments

/-- What a reference points at: a document, its source version and a JSON pointer into it. -/
structure ReferenceTarget where
  document : JsonObject
  sourceVersionId : Uuid
  pointer : Text

/-! ## Pointers -/

def unescapePointerToken (token : Text) : Text :=
  Text.replacePair '~' '0' '~' (Text.replacePair '~' '1' '/' token)

def followPointer (pointer : Text) : List Text → Json → Except SourceError Json
  | [], node => .ok node
  | token :: rest, node =>
    match node with
    | .object fields =>
      match Json.get fields (unescapePointerToken token) with
      | some value => followPointer pointer rest value
      | none => referenceResolutionError (("Unresolved $ref pointer: " : Text) ++ pointer)
    | _ => referenceResolutionError (("Unresolved $ref pointer: " : Text) ++ pointer)

/-- `_pointer` -/
def pointer (document : JsonObject) (pointer : Text) : Except SourceError Json :=
  if pointer = [] || pointer = "#" then .ok (.object document)
  else
    match (if pointer.startsWith "#" then pointer.tail else pointer) with
    | '/' :: tokens => followPointer pointer (tokens.splitOn '/') (.object document)
    | _ => referenceResolutionError (("Unsupported JSON pointer: " : Text) ++ pointer)

theorem followPointer_error {shown : Text} {tokens : List Text} : ∀ {node : Json} {error : SourceError},
    followPointer shown tokens node = .error error → ∃ message, error = .parse .referenceResolution message none none := by
  induction tokens with
  | nil =>
    intro node error failed
    cases failed
  | cons token rest ih =>
    intro node error failed
    cases node with
    | object fields =>
      simp only [followPointer] at failed
      split at failed
      · exact ih failed
      · cases failed
        exact ⟨_, rfl⟩
    | null | bool | number | string | array =>
      cases failed
      exact ⟨_, rfl⟩

theorem pointer_error {document : JsonObject} {path : Text} {error : SourceError} (failed : pointer document path = .error error) :
    ∃ message, error = .parse .referenceResolution message none none := by
  unfold pointer at failed
  split at failed
  · cases failed
  · split at failed
    · exact followPointer_error failed
    · cases failed
      exact ⟨_, rfl⟩

/-! ## Targets -/

/-- The keys under which a document is looked for, in this order. -/
def documentCandidates (documentRef : Text) (parsed : SplitResult) : List Text :=
  [documentRef, parsed.path.dropWhile (· == '/'), lastSegment parsed.path]

namespace OpenApiReferenceResolver

def externalDocument (resolver : OpenApiReferenceResolver) (unicode : Unicode) (documentRef : Text) :
    Except SourceError ExternalOpenApiDocument := do
  let parsed ← orValueError (urlsplit unicode documentRef)
  match (documentCandidates documentRef parsed).findSome? (List.lookup · resolver.external) with
  | some external => return external
  | none =>
    referenceResolutionError
      (("External $ref was not captured as an immutable source dependency: " : Text) ++ documentRef)

/-- `_reference_target`: the reference is written in the given document. -/
def referenceTarget (resolver : OpenApiReferenceResolver) (unicode : Unicode) (rawRef : Text) (document : JsonObject)
    (sourceVersionId : Uuid) : Except SourceError ReferenceTarget := do
  let (documentRef, fragment) ← orValueError (urldefrag unicode rawRef)
  let pointer : Text := if fragment = [] then "#" else '#' :: fragment
  if documentRef = [] then return ⟨document, sourceVersionId, pointer⟩
  else
    let external ← resolver.externalDocument unicode documentRef
    return ⟨external.document, external.sourceVersionId, pointer⟩

variable {resolver : OpenApiReferenceResolver} {unicode : Unicode} {rawRef documentRef fragment : Text}
  {document : JsonObject} {sourceVersionId : Uuid} {target : ReferenceTarget}

theorem externalDocument_eq_ok {parsed : SplitResult} {external : ExternalOpenApiDocument}
    (isParsed : urlsplit unicode documentRef = some parsed) :
    resolver.externalDocument unicode documentRef = .ok external ↔
      (documentCandidates documentRef parsed).findSome? (List.lookup · resolver.external) = some external := by
  unfold externalDocument
  rw [isParsed]
  show (match (documentCandidates documentRef parsed).findSome? (List.lookup · resolver.external) with
    | some external => _ | none => _) = _ ↔ _
  split
  · rename_i found same
    rw [same]
    simp [pure, Except.pure]
  · rename_i same
    rw [same]
    simp [referenceResolutionError]

theorem referenceTarget_external (defragged : urldefrag unicode rawRef = some (documentRef, fragment))
    (external : documentRef ≠ []) :
    resolver.referenceTarget unicode rawRef document sourceVersionId = .ok target ↔
      ∃ found, resolver.externalDocument unicode documentRef = .ok found ∧
        target = ⟨found.document, found.sourceVersionId, if fragment = [] then "#" else '#' :: fragment⟩ := by
  unfold referenceTarget
  rw [defragged]
  show (if documentRef = [] then _ else _) = _ ↔ _
  rw [if_neg external, bind_eq_ok]
  simp only [pure, Except.pure, Except.ok.injEq, eq_comm (a := target)]

end OpenApiReferenceResolver

end Mcplica.Parsers
