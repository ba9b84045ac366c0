import Mcplica.Contracts.References
import Mcplica.Domain.Shared
import Mcplica.Library.Checks

/-! # Sources

The sources a build is bound to, the names under which their documents are referred to, and the errors of
reading them. -/

namespace Mcplica.Domain

open Mcplica.Library
open Mcplica.Contracts

inductive SourceKind where
  | openapi
  | apiInventory
  | documentation
  deriving Repr, DecidableEq

def SourceKind.value : SourceKind → Text
  | openapi => "openapi"
  | apiInventory => "api_inventory"
  | documentation => "documentation"

structure ProjectSource where
  id : Uuid
  projectId : Uuid
  kind : SourceKind
  name : Text
  sourceUrl : Option Text
  isPrimary : Bool
  deriving Repr, DecidableEq

/-- One version of a source as a build holds it, with the aliases frozen into the binding. -/
structure BoundSourceVersion where
  source : ProjectSource
  versionId : Uuid
  contentSha256 : Text
  storageKey : Text
  dependencyAliases : List Text := []
  bindingMetadataTrustworthy : Bool := true
  deriving Repr, DecidableEq

/-- How the operations of a project are sent to the servers of its source. -/
structure ProjectRoutingConfiguration where
  defaultBaseUrl : Option Text := none
  activeServerRef : Option Text := none
  serverMappings : List (Text × Text) := []
  deriving Repr, DecidableEq

/-! ## Aliases -/

/-- `PurePosixPath(path).name` -/
def purePosixPathName (path : Text) : Text :=
  (((path.splitOn '/').filter fun part => part ≠ [] && part ≠ ".").getLast?).getD []

/-- `source_dependency_aliases`; `none` where `urlsplit` raises `ValueError`. -/
def sourceDependencyAliases (unicode : Unicode) (source : ProjectSource) : Option (List Text) :=
  match source.sourceUrl.filter (· ≠ []) with
  | none => some [source.name]
  | some url =>
    (urlsplit unicode url).map fun parsed =>
      let pathName := purePosixPathName parsed.path
      Text.sorted (source.name :: url :: if pathName = [] then [] else [pathName]).dedup

def BoundSourceVersion.effectiveDependencyAliases (unicode : Unicode) (binding : BoundSourceVersion) :
    Option (List Text) :=
  if binding.dependencyAliases = [] then sourceDependencyAliases unicode binding.source
  else some binding.dependencyAliases

/-! ## Errors -/

inductive ParseErrorKind where
  | sourceParse
  | referenceResolution
  deriving Repr, DecidableEq

inductive SourceError where
  /-- `ValueError`, which no handler of the parsers catches. -/
  | value
  /-- The walk through the references was not given enough fuel. -/
  | unfinished
  | parse (kind : ParseErrorKind) (message : Text) (sourceVersionId : Option Uuid) (sourcePointer : Option Text)
  deriving Repr, DecidableEq

/-- `_attribute_source_error`: what the error says already is kept. -/
def SourceError.attribute (sourceVersionId : Uuid) (pointer : Text) : SourceError → SourceError
  | value => value
  | unfinished => unfinished
  | parse kind message knownId knownPointer =>
    .parse kind message (some (knownId.getD sourceVersionId)) (some (knownPointer.getD pointer))

def attributed {α : Type} (sourceVersionId : Uuid) (pointer : Text) (result : Except SourceError α) :
    Except SourceError α :=
  result.mapError (SourceError.attribute sourceVersionId pointer)

@[simp] theorem attributed_eq_ok {α : Type} {sourceVersionId : Uuid} {pointer : Text} {result : Except SourceError α}
    {value : α} : attributed sourceVersionId pointer result = .ok value ↔ result = .ok value :=
  mapError_eq_ok

def sourceParseError {α : Type} (message : Text) : Except SourceError α :=
  .error (.parse .sourceParse message none none)

def referenceResolutionError {α : Type} (message : Text) : Except SourceError α :=
  .error (.parse .referenceResolution message none none)

/-- What `urllib` raises is a `ValueError`. -/
def orValueError {α : Type} (result : Option α) : Except SourceError α :=
  obtain? result .value

@[simp] theorem orValueError_eq_ok {α : Type} {result : Option α} {value : α} :
    orValueError result = .ok value ↔ result = some value :=
  obtain?_eq_ok

/-! ## File names -/

theorem getLast?_splitOn_slash (path : Text) : (path.splitOn '/').getLast? = some (lastSegment path) := by
  by_cases slash : '/' ∈ path
  · obtain ⟨after, before, parts, absent⟩ := List.eq_append_cons_of_mem (List.mem_reverse.mpr slash)
    have isSplit : path = before.reverse ++ '/' :: after.reverse := by
      rw [← List.reverse_reverse path, parts]
      simp
    have last : '/' ∉ after.reverse := fun member => absent (List.mem_reverse.mp member)
    rw [isSplit, List.splitOn_append_cons_self, List.splitOn_eq_singleton last, lastSegment_append_cons,
      lastSegment_of_not_mem last, List.getLast?_concat]
  · rw [List.splitOn_eq_singleton slash, lastSegment_of_not_mem slash]
    rfl

/-- The name of a path that ends in a file name is that name. -/
theorem purePosixPathName_eq {path : Text} (isFile : lastSegment path ≠ []) (notHere : lastSegment path ≠ ".") :
    purePosixPathName path = lastSegment path := by
  unfold purePosixPathName
  obtain ⟨before, parts⟩ := List.getLast?_eq_some_iff.mp (getLast?_splitOn_slash path)
  have kept : [lastSegment path].filter (fun part => part ≠ [] && part ≠ ("." : Text)) = [lastSegment path] := by
    rw [List.filter_eq_self]
    intro part member
    rw [List.mem_singleton.mp member, Bool.and_eq_true]
    exact ⟨decide_eq_true isFile, decide_eq_true notHere⟩
  rw [parts, List.filter_append, kept, List.getLast?_concat]
  rfl

end Mcplica.Domain
