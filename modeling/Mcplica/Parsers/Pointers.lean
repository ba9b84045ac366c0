import Mcplica.Contracts.Hosts
import Mcplica.Contracts.Validation
import Mcplica.Library.Fragments
import Mcplica.Parsers.Inventory

/-! # JSON pointers

The three walkers that follow a JSON pointer, beside what RFC 6901 assigns to it: the one of the OpenAPI resolver, the one
of the API Inventory parser and the one of the manifest contract. -/

namespace Mcplica.Parsers

open Mcplica.Library
open Mcplica.Contracts
open Mcplica.Domain

/-! ## Walks

Python hands out the node itself and not a copy of it, so a walk keeps the place it comes to. -/

inductive PointerStep where
  | member (name : Text)
  | item (index : Nat)
deriving DecidableEq

abbrev PointerNode := List PointerStep × Json

/-- The node under the tokens. The walks differ in what they take for the index of an item. -/
def walk (index : Text → Option Nat) : List Text → Json → Option PointerNode
  | [], node => some ([], node)
  | token :: rest, .object fields => do
    let value ← Json.get fields token
    let (place, node) ← walk index rest value
    return (.member token :: place, node)
  | token :: rest, .array items => do
    let position ← index token
    let value ← items[position]?
    let (place, node) ← walk index rest value
    return (.item position :: place, node)
  | _ :: _, _ => none

section Walks

variable {index other : Text → Option Nat} {token : Text} {tokens : List Text} {fields : JsonObject} {items : List Json}
  {node value : Json} {place : List PointerStep}

theorem walk_object : walk index (token :: tokens) (.object fields) = some (place, value) ↔
    ∃ member rest, Json.get fields token = some member ∧ walk index tokens member = some (rest, value) ∧
      place = .member token :: rest := by
  simp only [walk, Option.bind_eq_bind, Option.bind_eq_some_iff, Option.pure_def, Option.some.injEq, Prod.mk.injEq]
  constructor
  · rintro ⟨member, isMember, ⟨rest, found⟩, walked, isPlace, rfl⟩
    exact ⟨member, rest, isMember, walked, isPlace.symm⟩
  · rintro ⟨member, rest, isMember, walked, rfl⟩
    exact ⟨member, isMember, (rest, value), walked, rfl, rfl⟩

theorem walk_array : walk index (token :: tokens) (.array items) = some (place, value) ↔
    ∃ position item rest, index token = some position ∧ items[position]? = some item ∧
      walk index tokens item = some (rest, value) ∧ place = .item position :: rest := by
  simp only [walk, Option.bind_eq_bind, Option.bind_eq_some_iff, Option.pure_def, Option.some.injEq, Prod.mk.injEq]
  constructor
  · rintro ⟨position, isIndex, item, isItem, ⟨rest, found⟩, walked, isPlace, rfl⟩
    exact ⟨position, item, rest, isIndex, isItem, walked, isPlace.symm⟩
  · rintro ⟨position, item, rest, isIndex, isItem, walked, rfl⟩
    exact ⟨position, isIndex, item, isItem, (rest, value), walked, rfl, rfl⟩

/-- A walk that takes more texts for indices finds what one that takes fewer finds. -/
theorem walk_mono (wider : ∀ token position, index token = some position → other token = some position) :
    walk index tokens node = some (place, value) → walk other tokens node = some (place, value) := by
  induction tokens generalizing node place with
  | nil => exact id
  | cons token tokens ih =>
    intro walked
    cases node with
    | object fields =>
      obtain ⟨member, rest, isMember, onward, rfl⟩ := walk_object.mp walked
      exact walk_object.mpr ⟨member, rest, isMember, ih onward, rfl⟩
    | array items =>
      obtain ⟨position, item, rest, isIndex, isItem, onward, rfl⟩ := walk_array.mp walked
      exact walk_array.mpr ⟨position, item, rest, wider _ _ isIndex, isItem, ih onward, rfl⟩
    | null | bool | number | string => cases walked

/-- The way through members only. -/
abbrev byMembers (tokens : List Text) : List PointerStep :=
  tokens.map .member

/-- A place that is reached through members names the tokens. -/
theorem tokens_of_byMembers {names : List Text} (walked : walk index tokens node = some (byMembers names, value)) :
    names = tokens := by
  induction tokens generalizing node names with
  | nil =>
    rw [walk, Option.some.injEq, Prod.mk.injEq] at walked
    exact List.map_eq_nil_iff.mp walked.1.symm
  | cons token tokens ih =>
    cases node with
    | object fields =>
      obtain ⟨member, rest, -, onward, isPlace⟩ := walk_object.mp walked
      obtain ⟨name, others, rfl, isName, rfl⟩ := List.map_eq_cons_iff.mp isPlace
      rw [PointerStep.member.inj isName, ih onward]
    | array items =>
      obtain ⟨_, _, _, -, -, -, isPlace⟩ := walk_array.mp walked
      obtain ⟨_, _, -, impossible, -⟩ := List.map_eq_cons_iff.mp isPlace
      cases impossible
    | null | bool | number | string => cases walked

theorem place_of_walk_members (walked : walk (fun _ => none) tokens node = some (place, value)) :
    place = byMembers tokens := by
  induction tokens generalizing node place with
  | nil =>
    cases walked
    rfl
  | cons token tokens ih =>
    cases node with
    | object fields =>
      obtain ⟨member, rest, -, onward, rfl⟩ := walk_object.mp walked
      rw [ih onward]
      rfl
    | array items =>
      obtain ⟨_, _, _, impossible, -⟩ := walk_array.mp walked
      cases impossible
    | null | bool | number | string => cases walked

theorem walk_members (walked : walk index tokens node = some (byMembers tokens, value)) :
    walk (fun _ => none) tokens node = some (byMembers tokens, value) := by
  induction tokens generalizing node with
  | nil => exact walked
  | cons token tokens ih =>
    cases node with
    | object fields =>
      obtain ⟨member, rest, isMember, onward, same⟩ := walk_object.mp walked
      rw [byMembers, List.map_cons, List.cons.injEq] at same
      obtain ⟨-, rfl⟩ := same
      exact walk_object.mpr ⟨member, _, isMember, ih onward, rfl⟩
    | array items =>
      obtain ⟨_, _, _, _, _, _, impossible⟩ := walk_array.mp walked
      cases impossible
    | null | bool | number | string => cases walked

end Walks

/-! ## Names -/

/-- The node that names lead to: each is the name of a member, or what is read as the index of an item. -/
inductive Under (isIndex : Text → Nat → Prop) : List Text → Json → Json → Prop
  | here {node : Json} : Under isIndex [] node node
  | member {name : Text} {names : List Text} {fields : JsonObject} {child node : Json}
      (isMember : Json.get fields name = some child) (under : Under isIndex names child node) :
      Under isIndex (name :: names) (.object fields) node
  | item {name : Text} {names : List Text} {items : List Json} {position : Nat} {child node : Json}
      (isPosition : isIndex name position) (isItem : items[position]? = some child)
      (under : Under isIndex names child node) : Under isIndex (name :: names) (.array items) node

/-- A slash stands before each part of the fragment, and each part is read as a name. -/
def Denotes (read : Text → Text) (fragment : Text) (names : List Text) : Prop :=
  ∃ parts : List Text, (∀ part ∈ parts, '/' ∉ part) ∧ fragment = parts.flatMap ('/' :: ·) ∧ names = parts.map read

/-- Nothing is read as an index. -/
def noIndex (_ : Text) (_ : Nat) : Prop :=
  False

/-- Every row of digits is read as an index: leading zeros and other scripts are no obstacle. -/
def IsNumeral (unicode : Unicode) (name : Text) (position : Nat) : Prop :=
  name.isDigit unicode = true ∧ name.int unicode = some position

theorem under_iff_walk {isIndex : Text → Nat → Prop} {index : Text → Option Nat} {names : List Text} {node value : Json}
    (same : ∀ name position, isIndex name position ↔ index name = some position) :
    Under isIndex names node value ↔ ∃ place, walk index names node = some (place, value) := by
  induction names generalizing node with
  | nil =>
    constructor
    · intro under
      cases under
      exact ⟨[], rfl⟩
    · rintro ⟨place, walked⟩
      cases walked
      exact .here
  | cons name names ih =>
    constructor
    · intro under
      cases under with
      | member isMember onward =>
        obtain ⟨rest, walked⟩ := ih.mp onward
        exact ⟨_, walk_object.mpr ⟨_, rest, isMember, walked, rfl⟩⟩
      | item isPosition isItem onward =>
        obtain ⟨rest, walked⟩ := ih.mp onward
        exact ⟨_, walk_array.mpr ⟨_, _, rest, (same _ _).mp isPosition, isItem, walked, rfl⟩⟩
    · rintro ⟨place, walked⟩
      cases node with
      | object fields =>
        obtain ⟨child, rest, isMember, onward, -⟩ := walk_object.mp walked
        exact .member isMember (ih.mpr ⟨rest, onward⟩)
      | array items =>
        obtain ⟨position, child, rest, isPosition, isItem, onward, -⟩ := walk_array.mp walked
        exact .item ((same _ _).mpr isPosition) isItem (ih.mpr ⟨rest, onward⟩)
      | null | bool | number | string => cases walked

theorem noIndex_iff (name : Text) (position : Nat) : noIndex name position ↔ (none : Option Nat) = some position := by
  simp [noIndex]

/-! ## RFC 6901 -/

/-- An array index has no leading zeros. -/
def arrayIndex (token : Text) : Option Nat :=
  if token.isDigits && (token = "0" || !token.startsWith "0") then some token.digitsValue else none

/-- The node that RFC 6901 assigns to the reference tokens. -/
def assignedNode (tokens : List Text) (document : JsonObject) : Option PointerNode :=
  walk arrayIndex tokens (.object document)

/-! ## What the walkers find -/

/-- The tokens of a fragment that is taken apart before its tokens are decoded. -/
def decodedTokens : Text → Option (List Text)
  | [] => some []
  | '/' :: rest => some ((rest.splitOn '/').map decodeToken)
  | _ => none

def inventoryIndex (unicode : Unicode) (token : Text) : Option Nat :=
  if token.isDigit unicode && (token = "0" || !token.startsWith "0") then token.int unicode else none

def contractIndex (unicode : Unicode) (token : Text) : Option Nat :=
  if token.isDigit unicode then token.int unicode else none

def openApiNode (fragment : Text) (document : JsonObject) : Option PointerNode :=
  (Text.literalTokens fragment).bind fun tokens => walk (fun _ => none) tokens (.object document)

def inventoryNode (unicode : Unicode) (fragment : Text) (document : JsonObject) : Option PointerNode :=
  (decodedTokens fragment).bind fun tokens => walk (inventoryIndex unicode) tokens (.object document)

def contractNode (unicode : Unicode) (fragment : Text) (document : JsonObject) : Option PointerNode :=
  (decodedTokens fragment).bind fun tokens => walk (contractIndex unicode) tokens (.object document)

section Walkers

variable {unicode : Unicode} {platform : Platform} {fragment shown label : Text} {tokens : List Text} {document : JsonObject}
  {node value : Json}

/-! ### The OpenAPI resolver -/

theorem followPointer_eq_ok : followPointer shown tokens node = .ok value ↔
    ∃ place, walk (fun _ => none) (tokens.map unescapePointerToken) node = some (place, value) := by
  induction tokens generalizing node with
  | nil => simp [followPointer, walk]
  | cons token tokens ih =>
    cases node with
    | object fields =>
      simp only [followPointer, List.map_cons, walk_object]
      cases isMember : Json.get fields (unescapePointerToken token) with
      | none => simp [referenceResolutionError]
      | some member => simp [ih]
    | array items =>
      simp only [followPointer, List.map_cons, walk_array]
      simp [referenceResolutionError]
    | null | bool | number | string =>
      simp only [followPointer, List.map_cons, walk]
      simp [referenceResolutionError]

theorem pointer_eq_ok : pointer document ('#' :: fragment) = .ok value ↔
    ∃ place, openApiNode fragment document = some (place, value) := by
  unfold pointer openApiNode Text.literalTokens
  cases fragment with
  | nil => simp [walk]
  | cons first rest =>
    have starts : Text.startsWith ('#' :: first :: rest) "#" = true := by rfl
    simp only [starts, if_true, List.tail_cons]
    by_cases isSlash : first = '/'
    · subst isSlash
      simp [followPointer_eq_ok]
      rfl
    · simp [isSlash, referenceResolutionError]

/-! ### The API Inventory parser -/

/-- `_pointer` of the API Inventory parser. -/
def inventoryPointer (unicode : Unicode) (document : JsonObject) (pointer : Text) : Except SourceError Json := do
  let tokens ← pointerTokens pointer
  traversePointer unicode pointer tokens (.object document)

theorem traversePointer_eq_ok : traversePointer unicode shown tokens node = .ok value ↔
    ∃ place, walk (inventoryIndex unicode) tokens node = some (place, value) := by
  induction tokens generalizing node with
  | nil => simp [traversePointer, walk]
  | cons token tokens ih =>
    cases node with
    | object fields =>
      simp only [traversePointer, walk_object]
      cases isMember : Json.get fields token with
      | none => simp [referenceResolutionError]
      | some member => simp [ih]
    | array items =>
      simp only [traversePointer, walk_array, inventoryIndex]
      split
      · simp only [bind_eq_ok, orValueError_eq_ok]
        constructor
        · rintro ⟨position, isIndex, found⟩
          split at found
          · rename_i item isItem
            obtain ⟨rest, onward⟩ := ih.mp found
            exact ⟨_, position, item, rest, isIndex, isItem, onward, rfl⟩
          · cases found
        · rintro ⟨_, position, item, rest, isIndex, isItem, onward, rfl⟩
          refine ⟨position, isIndex, ?_⟩
          rw [isItem]
          exact ih.mpr ⟨rest, onward⟩
      · simp [referenceResolutionError]
    | null | bool | number | string =>
      simp only [traversePointer, walk]
      simp [referenceResolutionError]

theorem inventoryPointer_eq_ok : inventoryPointer unicode document ('#' :: fragment) = .ok value ↔
    ∃ place, inventoryNode unicode fragment document = some (place, value) := by
  unfold inventoryPointer inventoryNode pointerTokens decodedTokens
  cases fragment with
  | nil => simp [traversePointer_eq_ok, bind, Except.bind]
  | cons first rest =>
    have starts : Text.startsWith ('#' :: first :: rest) "#" = true := by rfl
    simp only [starts, if_true, List.tail_cons]
    by_cases isSlash : first = '/'
    · subst isSlash
      simp [traversePointer_eq_ok, bind, Except.bind]
      rfl
    · simp [isSlash, referenceResolutionError, bind, Except.bind]

/-! ### The manifest contract -/

theorem followTokens_eq_ok : followTokens platform label node tokens = .ok () ↔
    ∃ value place, walk (contractIndex platform.unicode) tokens node = some (place, value) := by
  induction tokens generalizing node with
  | nil => simp [followTokens, walk]
  | cons token tokens ih =>
    cases node with
    | object fields =>
      simp only [followTokens, walk_object]
      cases isMember : Json.get fields token with
      | none => simp
      | some member => simp [ih]
    | array items =>
      simp only [followTokens, walk_array, contractIndex]
      split
      · cases isIndex : token.int platform.unicode with
        | none => simp
        | some position =>
          cases isItem : items[position]? with
          | none => simp [isItem]
          | some item => simp [isItem, ih]
      · simp
    | null | bool | number | string =>
      simp only [followTokens, walk]
      simp

theorem resolveLocalSchemaReference_eq_ok :
    resolveLocalSchemaReference platform document label ('#' :: fragment) = .ok () ↔
      ∃ value place, contractNode platform.unicode fragment document = some (place, value) := by
  unfold resolveLocalSchemaReference contractNode decodedTokens
  cases fragment with
  | nil => simp [walk, pure, Except.pure]
  | cons first rest =>
    by_cases isSlash : first = '/'
    · subst isSlash
      have starts : Text.startsWith ('#' :: '/' :: rest) ['#', '/'] = true := by rfl
      simp [starts, bind_eq_ok, followTokens_eq_ok]
    · have starts : Text.startsWith ('#' :: first :: rest) ['#', '/'] = false := by
        simp [Text.startsWith, List.isPrefixOf, Ne.symm isSlash]
      simp [starts, isSlash, bind_eq_ok]

end Walkers

/-! ## References within a document -/

/-- The node that a reference in a document leads to, as `_resolve` has it. -/
def OpenApiReferenceResolver.lookup (resolver : OpenApiReferenceResolver) (unicode : Unicode) (reference : Text)
    (document : JsonObject) (sourceVersionId : Uuid) : Except SourceError Json := do
  let target ← resolver.referenceTarget unicode reference document sourceVersionId
  pointer target.document target.pointer

section Agreement

variable {unicode : Unicode} {resolver : OpenApiReferenceResolver} {fragment : Text} {tokens : List Text}
  {document : JsonObject} {sourceVersionId : Uuid}

theorem urlsplit_fragment (graphic : ∀ character ∈ fragment, 32 < character.toNat) :
    urlsplit unicode ('#' :: fragment) = some ⟨[], [], [], [], fragment⟩ := by
  have stripped : strippedUrl ('#' :: fragment) = '#' :: fragment := by
    show withoutBreaks ('#' :: fragment) = _
    refine withoutBreaks_eq_self fun character isBreak member => ?_
    have small : character.toNat ≤ 32 := by
      have breaks : ∀ other ∈ ("\t\r\n" : Text), other.toNat ≤ 32 := Text.forall_of_all (by decide)
      exact breaks character isBreak
    rcases List.mem_cons.mp member with rfl | member
    · revert small
      decide
    · have large := graphic character member
      omega
  have noScheme : splitScheme ('#' :: fragment) = ([], '#' :: fragment) := by
    have parted : Text.partition ':' ('#' :: fragment) =
        ('#' :: (Text.partition ':' fragment).1, (Text.partition ':' fragment).2) := rfl
    unfold splitScheme
    rw [parted]
    cases (Text.partition ':' fragment).2 with
    | none => rfl
    | some rest => rfl
  rw [urlsplit_eq, stripped, noScheme]
  rfl

theorem lookup_fragment (isFragment : Text.FragmentOf fragment tokens) :
    resolver.lookup unicode ('#' :: fragment) document sourceVersionId = pointer document ('#' :: fragment) := by
  have defragged : urldefrag unicode ('#' :: fragment) = some ([], fragment) := by
    unfold urldefrag
    rw [urlsplit_fragment fun character member => (isFragment.graphic character member).2]
    rfl
  have isPointer : (if fragment = [] then ("#" : Text) else '#' :: fragment) = '#' :: fragment := by
    split
    · rename_i isEmpty
      rw [isEmpty]
      rfl
    · rfl
  unfold OpenApiReferenceResolver.lookup OpenApiReferenceResolver.referenceTarget
  rw [defragged]
  show pointer document (if fragment = [] then ("#" : Text) else '#' :: fragment) = _
  rw [isPointer]

/-- The resolver and its siblings do what RFC 6901 says. -/
structure ResolvesPointer (platform : Platform) (resolver : OpenApiReferenceResolver) (document : JsonObject)
    (sourceVersionId : Uuid) (label fragment : Text) (tokens : List Text) : Prop where
  node : openApiNode fragment document = assignedNode tokens document
  yields : ∀ value, resolver.lookup platform.unicode ('#' :: fragment) document sourceVersionId = .ok value ↔
    ∃ place, assignedNode tokens document = some (place, value)
  raises : (∃ message, resolver.lookup platform.unicode ('#' :: fragment) document sourceVersionId =
    .error (.parse .referenceResolution message none none)) ↔ assignedNode tokens document = none
  inventoryNode : inventoryNode platform.unicode fragment document = openApiNode fragment document
  inventory : ∀ value, inventoryPointer platform.unicode document ('#' :: fragment) = .ok value ↔
    resolver.lookup platform.unicode ('#' :: fragment) document sourceVersionId = .ok value
  contract : resolveLocalSchemaReference platform document label ('#' :: fragment) = .ok () ↔
    ∃ value, resolver.lookup platform.unicode ('#' :: fragment) document sourceVersionId = .ok value

/-- Where there is a node: it is named without percent encoding and reached through members. Where there is none: the
names as they are written lead through members to none either, and neither do the names that are decoded one by one
through members and items, with every row of digits for an index. -/
def PlainlyNamed (unicode : Unicode) (fragment : Text) (tokens : List Text) (document : JsonObject) : Prop :=
  match assignedNode tokens document with
  | some (place, _) => '%' ∉ fragment ∧ place = byMembers tokens
  | none =>
    (∀ names value, Denotes Text.unescapeToken fragment names → ¬ Under noIndex names (.object document) value) ∧
      ∀ names value, Denotes (fun part => Text.unescapeToken part.unquote) fragment names →
        ¬ Under (IsNumeral unicode) names (.object document) value

theorem contractIndex_iff (name : Text) (position : Nat) :
    IsNumeral unicode name position ↔ contractIndex unicode name = some position := by
  unfold IsNumeral contractIndex
  split
  · rename_i isDigits
    exact and_iff_right isDigits
  · rename_i notDigits
    exact iff_of_false (fun numeral => notDigits numeral.1) (by simp)

theorem openApiNode_iff {value : Json} : (∃ place, openApiNode fragment document = some (place, value)) ↔
    ∃ names, Denotes Text.unescapeToken fragment names ∧ Under noIndex names (.object document) value := by
  simp only [openApiNode, Option.bind_eq_some_iff, Text.literalTokens_eq_some_iff, Denotes, under_iff_walk noIndex_iff]
  constructor
  · rintro ⟨place, names, denotes, walked⟩
    exact ⟨names, denotes, place, walked⟩
  · rintro ⟨names, denotes, place, walked⟩
    exact ⟨place, names, denotes, walked⟩

theorem decodedTokens_eq_some_iff : decodedTokens fragment = some tokens ↔
    Denotes (fun part => Text.unescapeToken part.unquote) fragment tokens :=
  Text.split_eq_some_iff rfl (fun _ => rfl) fun _ _ notSlash => by simp [decodedTokens, notSlash]

theorem contractNode_iff {value : Json} : (∃ place, contractNode unicode fragment document = some (place, value)) ↔
    ∃ names, Denotes (fun part => Text.unescapeToken part.unquote) fragment names ∧
      Under (IsNumeral unicode) names (.object document) value := by
  simp only [contractNode, Option.bind_eq_some_iff, decodedTokens_eq_some_iff, under_iff_walk contractIndex_iff]
  constructor
  · rintro ⟨place, names, denotes, walked⟩
    exact ⟨names, denotes, place, walked⟩
  · rintro ⟨names, denotes, place, walked⟩
    exact ⟨place, names, denotes, walked⟩

theorem eq_none_iff {node : Option PointerNode} {Leads : List Text → Json → Prop} {Names : List Text → Prop}
    (same : ∀ value, (∃ place, node = some (place, value)) ↔ ∃ names, Names names ∧ Leads names value) :
    (∀ names value, Names names → ¬ Leads names value) ↔ node = none := by
  rw [Option.eq_none_iff_forall_ne_some]
  constructor
  · rintro nothing ⟨place, value⟩ found
    obtain ⟨names, isNamed, leads⟩ := (same value).mp ⟨place, found⟩
    exact nothing names value isNamed leads
  · intro isNone names value isNamed leads
    obtain ⟨place, found⟩ := (same value).mpr ⟨names, isNamed, leads⟩
    exact isNone _ found

theorem contractIndex_of_inventoryIndex {token : Text} {position : Nat}
    (isIndex : inventoryIndex unicode token = some position) : contractIndex unicode token = some position := by
  unfold inventoryIndex at isIndex
  split at isIndex
  · rename_i accepted
    rw [Bool.and_eq_true] at accepted
    rw [contractIndex, if_pos accepted.1]
    exact isIndex
  · cases isIndex

theorem inventoryNode_eq_none (none_ : contractNode unicode fragment document = none) :
    inventoryNode unicode fragment document = none := by
  unfold inventoryNode
  unfold contractNode at none_
  cases names : decodedTokens fragment with
  | none => rfl
  | some names' =>
    rw [names] at none_
    show walk (inventoryIndex unicode) names' (.object document) = none
    by_contra found
    obtain ⟨node, isNode⟩ := Option.ne_none_iff_exists'.mp found
    have wider : walk (contractIndex unicode) names' (.object document) = some node :=
      walk_mono (fun _ _ => contractIndex_of_inventoryIndex) isNode
    rw [Option.bind_some, wider] at none_
    cases none_

theorem decodedTokens_eq (isFragment : Text.FragmentOf fragment tokens) (noSign : '%' ∉ fragment) :
    decodedTokens fragment = some tokens := by
  have literal := (Text.literalTokens_eq_iff isFragment).mpr noSign
  have ascii : ∀ character ∈ fragment, character.toNat < 0x80 := fun character member => (isFragment.graphic character member).1
  unfold Text.literalTokens at literal
  split at literal
  · exact literal
  · rename_i rest
    refine Eq.trans (congrArg some (List.map_congr_left fun part isPart => ?_)) literal
    have inside : part ⊆ '/' :: rest := List.subset_cons_of_subset _ (Text.subset_of_mem_splitOn isPart)
    show Text.unescapeToken (Text.unquote part) = Text.unescapeToken part
    rw [Text.unquote_of_noSign _ fun member => noSign (inside member)]
    exact List.all_eq_true.mpr fun character member => decide_eq_true (ascii character (inside member))
  · cases literal

theorem resolvesPointer_of_none {platform : Platform} {label : Text} (isFragment : Text.FragmentOf fragment tokens)
    (assigned : assignedNode tokens document = none) (openApi : openApiNode fragment document = none)
    (contract : contractNode platform.unicode fragment document = none) :
    ResolvesPointer platform resolver document sourceVersionId label fragment tokens := by
  have found : ∀ value, pointer document ('#' :: fragment) ≠ .ok value := by
    intro value isOk
    obtain ⟨place, isNode⟩ := pointer_eq_ok.mp isOk
    rw [openApi] at isNode
    cases isNode
  have inventory := inventoryNode_eq_none contract
  constructor
  · rw [openApi, assigned]
  · intro value
    rw [lookup_fragment isFragment, assigned]
    simp [found]
  · rw [lookup_fragment isFragment]
    refine iff_of_true ?_ assigned
    cases failed : pointer document ('#' :: fragment) with
    | ok value => exact absurd failed (found value)
    | error error =>
      obtain ⟨message, rfl⟩ := pointer_error failed
      exact ⟨message, rfl⟩
  · rw [inventory, openApi]
  · intro value
    rw [lookup_fragment isFragment, inventoryPointer_eq_ok, inventory]
    simp [found]
  · rw [lookup_fragment isFragment, resolveLocalSchemaReference_eq_ok, contract]
    simp [found]

theorem resolvesPointer_of_some {platform : Platform} {label : Text} {place : List PointerStep} {value : Json}
    (isFragment : Text.FragmentOf fragment tokens) (assigned : assignedNode tokens document = some (place, value))
    (openApi : openApiNode fragment document = some (place, value))
    (inventory : inventoryNode platform.unicode fragment document = some (place, value))
    (contract : contractNode platform.unicode fragment document = some (place, value)) :
    ResolvesPointer platform resolver document sourceVersionId label fragment tokens := by
  have found : pointer document ('#' :: fragment) = .ok value := pointer_eq_ok.mpr ⟨place, openApi⟩
  constructor
  · rw [openApi, assigned]
  · intro other
    rw [lookup_fragment isFragment, found, assigned]
    simp
  · rw [lookup_fragment isFragment, found, assigned]
    simp
  · rw [inventory, openApi]
  · intro other
    rw [lookup_fragment isFragment, inventoryPointer_eq_ok, inventory, found]
    simp
  · rw [lookup_fragment isFragment, resolveLocalSchemaReference_eq_ok, contract, found]
    simp

theorem plainlyNamed_of_resolves {platform : Platform} {label : Text} (isFragment : Text.FragmentOf fragment tokens)
    (resolves : ResolvesPointer platform resolver document sourceVersionId label fragment tokens) :
    PlainlyNamed platform.unicode fragment tokens document := by
  unfold PlainlyNamed
  cases assigned : assignedNode tokens document with
  | some node =>
    obtain ⟨place, value⟩ := node
    have isNode := resolves.node
    rw [assigned] at isNode
    obtain ⟨names, literal, walked⟩ := Option.bind_eq_some_iff.mp isNode
    have isPlace := place_of_walk_members walked
    subst isPlace
    -- The place names the tokens, so nothing can have been spelled.
    have same := tokens_of_byMembers assigned
    subst same
    exact ⟨(Text.literalTokens_eq_iff isFragment).mp literal, rfl⟩
  | none =>
    have notOpenApi := resolves.node.trans assigned
    refine ⟨(eq_none_iff fun _ => openApiNode_iff).mpr notOpenApi, (eq_none_iff fun _ => contractNode_iff).mpr ?_⟩
    by_contra found
    obtain ⟨⟨place, value⟩, isNode⟩ := Option.ne_none_iff_exists'.mp found
    obtain ⟨other, looked⟩ := resolves.contract.mp (resolveLocalSchemaReference_eq_ok.mpr ⟨value, place, isNode⟩)
    obtain ⟨_, impossible⟩ := (resolves.yields other).mp looked
    rw [assigned] at impossible
    cases impossible

/-- A reference within a document is resolved as RFC 6901 says, and alike by all three walkers, exactly when what it names
is plainly named. -/
theorem pointer_resolution_iff (platform : Platform) (resolver : OpenApiReferenceResolver) (document : JsonObject)
    (sourceVersionId : Uuid) (label : Text) {fragment : Text} {tokens : List Text}
    (isFragment : Text.FragmentOf fragment tokens) :
    ResolvesPointer platform resolver document sourceVersionId label fragment tokens ↔
      PlainlyNamed platform.unicode fragment tokens document := by
  refine ⟨plainlyNamed_of_resolves isFragment, fun plainly => ?_⟩
  unfold PlainlyNamed at plainly
  cases assigned : assignedNode tokens document with
  | some node =>
    obtain ⟨place, value⟩ := node
    rw [assigned] at plainly
    obtain ⟨noSign, isPlace⟩ := plainly
    subst isPlace
    have walked := walk_members assigned
    have decoded := decodedTokens_eq isFragment noSign
    refine resolvesPointer_of_some isFragment assigned ?_ ?_ ?_
    · rw [openApiNode, (Text.literalTokens_eq_iff isFragment).mpr noSign]
      exact walked
    · rw [inventoryNode, decoded]
      exact walk_mono (fun _ _ impossible => by cases impossible) walked
    · rw [contractNode, decoded]
      exact walk_mono (fun _ _ impossible => by cases impossible) walked
  | none =>
    rw [assigned] at plainly
    exact resolvesPointer_of_none isFragment assigned ((eq_none_iff fun _ => openApiNode_iff).mp plainly.1)
      ((eq_none_iff fun _ => contractNode_iff).mp plainly.2)

end Agreement

def petComponents : JsonObject :=
  [Json.entry "schemas" (.object [Json.entry "Pet" (.object [])])]

/-- A reference to a component is resolved. -/
theorem component_reference_resolved : Text.FragmentOf "/schemas/Pet" ["schemas", "Pet"] ∧
    ResolvesPointer plainPlatform ⟨petComponents, 1, []⟩ petComponents 1 "schema" "/schemas/Pet" ["schemas", "Pet"] := by
  have isFragment : Text.FragmentOf "/schemas/Pet" ["schemas", "Pet"] := Text.PercentEncodes.self rfl
  refine ⟨isFragment, ?_⟩
  exact (pointer_resolution_iff plainPlatform ⟨petComponents, 1, []⟩ petComponents 1 "schema" isFragment).mpr
    ⟨by decide, rfl⟩

def spacedDocument : JsonObject :=
  [Json.entry "a b" (.object []), Json.entry "list" (.array [.object []])]

/-- A name with a blank and an item of an array: RFC 6901 assigns a node to each of the pointers and the API Inventory
parser finds it, but the OpenAPI resolver does not. -/
theorem spelled_name_and_item_unresolved :
    let resolver : OpenApiReferenceResolver := ⟨spacedDocument, 1, []⟩
    Text.FragmentOf "/a%20b" ["a b"] ∧ Text.FragmentOf "/list/0" ["list", "0"] ∧
      assignedNode ["a b"] spacedDocument = some ([.member "a b"], .object []) ∧
      inventoryPointer asciiUnicode spacedDocument "#/a%20b" = .ok (.object []) ∧
      resolver.lookup asciiUnicode "#/a%20b" spacedDocument 1 = referenceResolutionError "Unresolved $ref pointer: #/a%20b" ∧
      assignedNode ["list", "0"] spacedDocument = some ([.member "list", .item 0], .object []) ∧
      inventoryPointer asciiUnicode spacedDocument "#/list/0" = .ok (.object []) ∧
      resolver.lookup asciiUnicode "#/list/0" spacedDocument 1 = referenceResolutionError "Unresolved $ref pointer: #/list/0" ∧
      ¬ ResolvesPointer plainPlatform resolver spacedDocument 1 "schema" "/a%20b" ["a b"] ∧
      ¬ ResolvesPointer plainPlatform resolver spacedDocument 1 "schema" "/list/0" ["list", "0"] := by
  intro resolver
  have blank : Text.Spells "%20" (Text.utf8Bytes ' ') := @Text.Spells.cons '2' '0' 2 0 [] [] rfl rfl .nil
  have spelled : Text.FragmentOf "/a%20b" ["a b"] := .literal rfl (.literal rfl (.spelled blank (.literal rfl .nil)))
  have plain : Text.FragmentOf "/list/0" ["list", "0"] := Text.PercentEncodes.self rfl
  refine ⟨spelled, plain, rfl, rfl, rfl, rfl, rfl, rfl, fun resolves => ?_, fun resolves => ?_⟩
  · have found := (resolves.yields (.object [])).mpr ⟨_, rfl⟩
    cases found
  · have found := (resolves.yields (.object [])).mpr ⟨_, rfl⟩
    cases found

end Mcplica.Parsers
