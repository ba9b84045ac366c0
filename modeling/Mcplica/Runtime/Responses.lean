import Mathlib.Data.Int.Order.Basic
import Mathlib.Data.List.MinMax
import Mcplica.Runtime.Startup

/-! # The response contract

`validate_upstream_response`: the status selects the declared responses, the media type one of them, and its schema
decides. -/

namespace Mcplica.Runtime

open Mcplica.Library Mcplica.Contracts

structure UpstreamResult where
  statusCode : Int
  contentType : Text
  data : Json

def UpstreamResult.isError (result : UpstreamResult) : Bool :=
  300 ≤ result.statusCode

def isNone : Json → Bool
  | .null => true
  | _ => false

def responseContractMismatch : Text :=
  "The upstream API response did not match its compiled contract"

/-- `str` of a number. -/
def statusText (code : Int) : Text :=
  if code < 0 then '-' :: Text.ofNat code.natAbs else Text.ofNat code.natAbs

/-- The code itself, its class and the default. -/
def statusKeys (code : Int) : List Text :=
  [statusText code, (statusText code).take 1 ++ ("XX" : Text), "default"]

def mediaSpecificity (expected : Option Text) (actual : Text) : Int :=
  match expected with
  | none => -1
  | some expected =>
    if expected = actual then 4
    else
      let (expectedType, expectedSubtype) := Text.partition '/' expected
      let (actualType, actualSubtype) := Text.partition '/' actual
      if expected = ("*/*" : Text) then 1
      else if expectedType = actualType ∧ expectedSubtype.getD [] = ("*" : Text) then 2
      else if expectedType = actualType ∧ (expectedSubtype.getD []).startsWith "*+" ∧
          (actualSubtype.getD []).endsWith ((expectedSubtype.getD []).drop 1) then 3
      else -1

/-- `max` of the scored items: the first of the best ones. -/
def mostSpecific (media : Text) (scored : List CompiledResponseDefinition) : Option CompiledResponseDefinition :=
  @List.argmax _ _ Int.instLinearOrder.toPreorder _ (fun item => mediaSpecificity item.definition.mediaType media) scored

def selectMedia (candidates : List CompiledResponseDefinition) (actual : Text) (data : Json) :
    Option CompiledResponseDefinition :=
  let withoutMedia := candidates.filter fun item => item.definition.mediaType = none
  match isNone data, withoutMedia with
  | true, first :: _ => some first
  | _, _ =>
    let scored := candidates.filter fun item => item.definition.mediaType ≠ none
    let matched := scored.filter fun item => mediaSpecificity item.definition.mediaType actual ≥ 0
    if matched = [] then none
    else mostSpecific actual scored

def candidatesFor (contract : List CompiledResponseDefinition) (statusKey : Text) : List CompiledResponseDefinition :=
  contract.filter fun item => item.definition.statusCode = statusKey

section

-- `accepts schema data`: `Draft202012Validator(schema).validate(data)` does not raise.
variable (accepts : JsonObject → Json → Bool)

def validateSelected (selected : CompiledResponseDefinition) (data : Json) : Except Text Unit :=
  match selected.validator with
  | some schema => ensure (accepts schema data) responseContractMismatch
  | none => ensure (!(selected.definition.mediaType = none && !isNone data)) responseContractMismatch

def validateStatus (contract : List CompiledResponseDefinition) (result : UpstreamResult) : List Text → Except Text Unit
  | [] => .error responseContractMismatch
  | statusKey :: rest =>
    if candidatesFor contract statusKey = [] then validateStatus contract result rest
    else do
      let selected ← obtain? (selectMedia (candidatesFor contract statusKey) result.contentType result.data)
        responseContractMismatch
      validateSelected accepts selected result.data

def validateUpstreamResponse (contract : List CompiledResponseDefinition) (result : UpstreamResult) : Except Text Unit :=
  if result.isError then .ok () else validateStatus accepts contract result (statusKeys result.statusCode)

end

/-! ## Media ranges -/

/-- The forms of a media range. -/
inductive RangeForm where
  | any
  | type
  | suffix
  | exact
  deriving Repr, DecidableEq

def RangeForm.rank : RangeForm → Int
  | any => 1
  | type => 2
  | suffix => 3
  | exact => 4

/-- The type of a media type stands before its first slash. -/
def mediaTypeOf (media : Text) : Text :=
  (Text.partition '/' media).1

/-- A range of the given form covers a media type. -/
def Covers (range media : Text) : RangeForm → Prop
  | .any => range = "*/*"
  | .type => range ≠ "*/*" ∧ range = mediaTypeOf media ++ ("/*" : Text)
  | .suffix => ∃ suffix subtype, range = mediaTypeOf media ++ ("/*+" : Text) ++ suffix ∧
      media = mediaTypeOf media ++ '/' :: subtype ∧ '+' :: suffix <:+ subtype
  | .exact => range = media

/-- A range may cover a media type in more than one form; the most specific one counts. -/
structure Specificity (range media : Text) (form : RangeForm) : Prop where
  covers : Covers range media form
  most : ∀ other, Covers range media other → other.rank ≤ form.rank

theorem eq_of_rank {form other : RangeForm} (same : form.rank = other.rank) : form = other := by
  cases form <;> cases other <;> first | rfl | cases same

theorem partition_eq_iff {text before : Text} {rest : Text} (absent : '/' ∉ before) :
    Text.partition '/' text = (before, some rest) ↔ text = before ++ '/' :: rest := by
  constructor
  · exact Text.partition_eq_some
  · rintro rfl
    exact Text.partition_append_cons absent rest

theorem not_mem_mediaTypeOf (media : Text) : '/' ∉ mediaTypeOf media :=
  Text.not_mem_partition_fst '/' media

theorem covers_type_iff {range media : Text} (notAny : range ≠ "*/*") :
    Covers range media .type ↔
      (Text.partition '/' range).1 = mediaTypeOf media ∧ (Text.partition '/' range).2.getD [] = ("*" : Text) := by
  constructor
  · rintro ⟨-, same⟩
    rw [show Text.partition '/' range = (mediaTypeOf media, some ("*" : Text)) from
      (partition_eq_iff (not_mem_mediaTypeOf media)).mpr same]
    exact ⟨rfl, rfl⟩
  · rintro ⟨sameType, star⟩
    refine ⟨notAny, ?_⟩
    cases parted : Text.partition '/' range with
    | mk before after =>
      rw [parted] at sameType star
      cases after with
      | none => cases star
      | some after =>
        have isRange := Text.partition_eq_some parted
        rw [isRange, show after = ("*" : Text) from star, show before = mediaTypeOf media from sameType]
        rfl

theorem covers_suffix_iff {range media : Text} :
    Covers range media .suffix ↔
      (Text.partition '/' range).1 = mediaTypeOf media ∧ Text.startsWith ((Text.partition '/' range).2.getD []) "*+" = true ∧
        Text.endsWith ((Text.partition '/' media).2.getD []) (((Text.partition '/' range).2.getD []).drop 1) = true := by
  constructor
  · rintro ⟨suffix, subtype, isRange, isMedia, ends⟩
    have rangeParted : Text.partition '/' range = (mediaTypeOf media, some (("*+" : Text) ++ suffix)) :=
      (partition_eq_iff (not_mem_mediaTypeOf media)).mpr (isRange.trans (List.append_assoc _ _ _))
    have mediaParted : Text.partition '/' media = (mediaTypeOf media, some subtype) :=
      (partition_eq_iff (not_mem_mediaTypeOf media)).mpr isMedia
    rw [rangeParted, mediaParted]
    exact ⟨rfl, List.isPrefixOf_iff_prefix.mpr ⟨suffix, rfl⟩, List.isSuffixOf_iff_suffix.mpr ends⟩
  · rintro ⟨sameType, starts, ends⟩
    obtain ⟨suffix, isSubtype⟩ := List.isPrefixOf_iff_prefix.mp starts
    have ends := List.isSuffixOf_iff_suffix.mp ends
    rw [← isSubtype] at ends
    cases rangeParted : Text.partition '/' range with
    | mk before after =>
      rw [rangeParted] at sameType isSubtype
      cases after with
      | none => cases isSubtype
      | some after =>
        have isRange := Text.partition_eq_some rangeParted
        cases mediaParted : Text.partition '/' media with
        | mk mediaType subtype =>
          rw [mediaParted] at ends
          cases subtype with
          | none => exact absurd (List.suffix_nil.mp ends) (List.cons_ne_nil _ _)
          | some subtype =>
            have isType : mediaTypeOf media = mediaType := congrArg Prod.fst mediaParted
            refine ⟨suffix, subtype, ?_, ?_, ends⟩
            · rw [isRange, show before = mediaTypeOf media from sameType,
                show after = ("*+" : Text) ++ suffix from isSubtype.symm, List.append_assoc]
              rfl
            · rw [isType]
              exact Text.partition_eq_some mediaParted

/-- A range with the subtype `*` is none with a suffix. -/
theorem not_covers_suffix {range media : Text} (star : (Text.partition '/' range).2.getD [] = ("*" : Text)) :
    ¬ Covers range media .suffix := by
  intro covers
  have starts := (covers_suffix_iff.mp covers).2.1
  rw [star] at starts
  cases starts

/-- The score of a range is the rank of its specificity, or negative when it covers the media type in no form. -/
theorem mediaSpecificity_cases (range media : Text) :
    (∃ form, Specificity range media form ∧ mediaSpecificity (some range) media = form.rank) ∨
      (∀ form, ¬ Covers range media form) ∧ mediaSpecificity (some range) media = -1 := by
  by_cases isExact : range = media
  · refine .inl ⟨.exact, ⟨isExact, ?_⟩, if_pos isExact⟩
    intro other _
    cases other <;> decide
  by_cases isAny : range = "*/*"
  · refine .inl ⟨.any, ⟨isAny, ?_⟩, ?_⟩
    · intro other covers
      cases other with
      | any => exact le_refl _
      | type => exact absurd isAny covers.1
      | suffix => exact absurd covers (not_covers_suffix (by rw [isAny]; rfl))
      | exact => exact absurd covers isExact
    · rw [mediaSpecificity, if_neg isExact]
      exact if_pos isAny
  by_cases isType : Covers range media .type
  · have parts := (covers_type_iff isAny).mp isType
    refine .inl ⟨.type, ⟨isType, ?_⟩, ?_⟩
    · intro other covers
      cases other with
      | any => exact absurd covers isAny
      | type => exact le_refl _
      | suffix => exact absurd covers (not_covers_suffix parts.2)
      | exact => exact absurd covers isExact
    · rw [mediaSpecificity, if_neg isExact]
      exact (if_neg isAny).trans (if_pos parts)
  have notType := fun parts => isType ((covers_type_iff isAny).mpr parts)
  by_cases isSuffix : Covers range media .suffix
  · refine .inl ⟨.suffix, ⟨isSuffix, ?_⟩, ?_⟩
    · intro other covers
      cases other with
      | any => exact absurd covers isAny
      | type => exact absurd covers isType
      | suffix => exact le_refl _
      | exact => exact absurd covers isExact
    · rw [mediaSpecificity, if_neg isExact]
      exact (if_neg isAny).trans ((if_neg notType).trans (if_pos (covers_suffix_iff.mp isSuffix)))
  · refine .inr ⟨?_, ?_⟩
    · intro form
      cases form with
      | any => exact isAny
      | type => exact isType
      | suffix => exact isSuffix
      | exact => exact isExact
    · rw [mediaSpecificity, if_neg isExact]
      exact (if_neg isAny).trans ((if_neg notType).trans (if_neg fun parts => isSuffix (covers_suffix_iff.mpr parts)))

theorem mediaSpecificity_nonneg {range media : Text} :
    0 ≤ mediaSpecificity (some range) media ↔
      ∃ form, Specificity range media form ∧ mediaSpecificity (some range) media = form.rank := by
  rcases mediaSpecificity_cases range media with scored | ⟨none_, negative⟩
  · refine iff_of_true ?_ scored
    obtain ⟨form, -, score⟩ := scored
    rw [score]
    cases form <;> decide
  · refine iff_of_false (by rw [negative]; decide) ?_
    rintro ⟨form, specificity, -⟩
    exact none_ form specificity.covers

theorem rank_le_mediaSpecificity {range media : Text} {form : RangeForm} (covers : Covers range media form) :
    form.rank ≤ mediaSpecificity (some range) media := by
  rcases mediaSpecificity_cases range media with ⟨best, specificity, score⟩ | ⟨none_, -⟩
  · rw [score]
    exact specificity.most form covers
  · exact absurd covers (none_ form)

/-! ## Dispatch -/

/-- The first of the keys of a result that is declared. -/
def MostSpecificStatus (definitions : List ResponseDefinition) (code : Int) (statusKey : Text) : Prop :=
  (statusKeys code).find? (fun key => definitions.any fun definition => definition.statusCode = key) = some statusKey

/-- What a declared response without a body answers: an empty body. -/
def AnswersEmpty (definitions : List ResponseDefinition) (statusKey : Text) (data : Json) : Prop :=
  isNone data = true ∧ ∃ definition ∈ definitions, definition.statusCode = statusKey ∧ definition.mediaType = none

/-- The range is declared for the status, and no other range of that status is more specific for the media type. -/
structure MostSpecificRange (definitions : List ResponseDefinition) (statusKey media range : Text) (form : RangeForm) :
    Prop where
  specificity : Specificity range media form
  most : ∀ other ∈ definitions, other.statusCode = statusKey → ∀ otherRange otherForm,
    other.mediaType = some otherRange → Covers otherRange media otherForm → otherForm.rank ≤ form.rank

/-- The declared response that a result has to match. -/
structure Dispatched (definitions : List ResponseDefinition) (result : UpstreamResult) (definition : ResponseDefinition) :
    Prop where
  declared : definition ∈ definitions
  status : MostSpecificStatus definitions result.statusCode definition.statusCode
  bodyless : AnswersEmpty definitions definition.statusCode result.data → definition.mediaType = none
  media : ¬ AnswersEmpty definitions definition.statusCode result.data → ∃ range form,
    definition.mediaType = some range ∧
      MostSpecificRange definitions definition.statusCode result.contentType range form

/-- A body as the schema of a declared response wants it; without a schema every body is. -/
def AcceptsBody (accepts : JsonObject → Json → Bool) (definition : ResponseDefinition) (data : Json) : Prop :=
  ∀ schema, definition.schema = some schema → accepts schema data = true

section Dispatch

variable {platform : Platform} {accepts : JsonObject → Json → Bool} {tool : MCPTool}
variable {definitions order : List ResponseDefinition} {contract : List CompiledResponseDefinition}
variable {result : UpstreamResult} {definition other : ResponseDefinition} {statusKey : Text}

def compileDefinition (definition : ResponseDefinition) : CompiledResponseDefinition :=
  ⟨definition, definition.schema⟩

theorem compileResponses_eq_map {identities : List (Text × Option Text)}
    (compiled : compileResponses platform tool identities definitions = .ok contract) :
    contract = definitions.map compileDefinition := by
  induction definitions generalizing identities contract with
  | nil =>
    cases compiled
    rfl
  | cons definition rest ih =>
    simp only [compileResponses, bind_eq_ok] at compiled
    obtain ⟨-, -, -, -, later, compiledLater, same⟩ := compiled
    cases same
    rw [ih compiledLater]
    rfl

section Media

variable {items : List CompiledResponseDefinition} {item selected : CompiledResponseDefinition} {media : Text} {data : Json}

/-- A response without a body is taken for an empty body. -/
def HasBodyless (items : List CompiledResponseDefinition) (data : Json) : Prop :=
  isNone data = true ∧ ∃ item ∈ items, item.definition.mediaType = none

theorem selectMedia_of_hasBodyless (bodyless : HasBodyless items data) :
    ∃ item ∈ items, item.definition.mediaType = none ∧ selectMedia items media data = some item := by
  obtain ⟨isEmpty, witness, member, noMedia⟩ := bodyless
  have inFilter : witness ∈ items.filter fun item => item.definition.mediaType = none :=
    List.mem_filter.mpr ⟨member, decide_eq_true noMedia⟩
  cases filtered : items.filter fun item => item.definition.mediaType = none with
  | nil =>
    rw [filtered] at inFilter
    cases inFilter
  | cons first rest =>
    have isFirst : first ∈ items.filter fun item => item.definition.mediaType = none := by
      rw [filtered]
      exact List.mem_cons_self
    obtain ⟨firstMember, firstNoMedia⟩ := List.mem_filter.mp isFirst
    refine ⟨first, firstMember, of_decide_eq_true firstNoMedia, ?_⟩
    rw [selectMedia, filtered, isEmpty]

theorem mostSpecific_eq_none {scored : List CompiledResponseDefinition} : mostSpecific media scored = none ↔ scored = [] :=
  @List.argmax_eq_none _ _ Int.instLinearOrder.toPreorder _ _ _

theorem mem_of_mostSpecific {scored : List CompiledResponseDefinition} (isSelected : mostSpecific media scored = some selected) :
    selected ∈ scored :=
  @List.argmax_mem _ _ Int.instLinearOrder.toPreorder _ _ _ _ isSelected

theorem le_mostSpecific {scored : List CompiledResponseDefinition} {item : CompiledResponseDefinition}
    (isSelected : mostSpecific media scored = some selected) (isScored : item ∈ scored) :
    mediaSpecificity item.definition.mediaType media ≤ mediaSpecificity selected.definition.mediaType media :=
  @List.le_of_mem_argmax _ _ Int.instLinearOrder _ _ _ _ isScored isSelected

theorem selectMedia_of_not_hasBodyless (body : ¬ HasBodyless items data) :
    selectMedia items media data =
      if (items.filter fun item => item.definition.mediaType ≠ none).filter
          (fun item => mediaSpecificity item.definition.mediaType media ≥ 0) = [] then none
      else mostSpecific media (items.filter fun item => item.definition.mediaType ≠ none) := by
  rw [selectMedia]
  cases isEmpty : isNone data with
  | false => rfl
  | true =>
    have filtered : items.filter (fun item => item.definition.mediaType = none) = [] := by
      rw [List.filter_eq_nil_iff]
      intro item member noMedia
      exact body ⟨isEmpty, item, member, of_decide_eq_true noMedia⟩
    rw [filtered]

/-- Without a range that covers the media type nothing is selected. -/
theorem selectMedia_eq_none (body : ¬ HasBodyless items data) :
    selectMedia items media data = none ↔
      ∀ item ∈ items, ∀ range form, item.definition.mediaType = some range → ¬ Covers range media form := by
  rw [selectMedia_of_not_hasBodyless body]
  constructor
  · intro nothing item member range form isRange covers
    have score := rank_le_mediaSpecificity covers
    have positive : 0 ≤ form.rank := by cases form <;> decide
    have isMatched : item ∈ (items.filter fun item => item.definition.mediaType ≠ none).filter
        fun item => mediaSpecificity item.definition.mediaType media ≥ 0 := by
      refine List.mem_filter.mpr ⟨List.mem_filter.mpr ⟨member, ?_⟩, ?_⟩
      · exact decide_eq_true (by rw [isRange]; exact Option.some_ne_none _)
      · exact decide_eq_true (by rw [isRange]; exact positive.trans score)
    rw [if_neg (List.ne_nil_of_mem isMatched), mostSpecific_eq_none] at nothing
    rw [nothing] at isMatched
    cases isMatched
  · intro uncovered
    refine if_pos (List.filter_eq_nil_iff.mpr fun item isScored positive => ?_)
    obtain ⟨member, hasMedia⟩ := List.mem_filter.mp isScored
    obtain ⟨range, isRange⟩ := Option.ne_none_iff_exists'.mp (of_decide_eq_true hasMedia)
    have nonnegative := of_decide_eq_true positive
    rw [isRange] at nonnegative
    obtain ⟨form, specificity, -⟩ := mediaSpecificity_nonneg.mp nonnegative
    exact uncovered item member range form isRange specificity.covers

/-- The selected range is the most specific one. -/
theorem selectMedia_eq_some (body : ¬ HasBodyless items data) (isSelected : selectMedia items media data = some selected) :
    selected ∈ items ∧ ∃ range form, selected.definition.mediaType = some range ∧ Specificity range media form ∧
      ∀ item ∈ items, ∀ otherRange otherForm, item.definition.mediaType = some otherRange →
        Covers otherRange media otherForm → otherForm.rank ≤ form.rank := by
  rw [selectMedia_of_not_hasBodyless body] at isSelected
  split at isSelected
  · cases isSelected
  rename_i someMatched
  obtain ⟨matched, isMatched⟩ := List.exists_mem_of_ne_nil _ someMatched
  obtain ⟨isScored, positive⟩ := List.mem_filter.mp isMatched
  obtain ⟨member, hasMedia⟩ := List.mem_filter.mp (mem_of_mostSpecific isSelected)
  have most {item : CompiledResponseDefinition} (isScored : item ∈ items.filter fun item => item.definition.mediaType ≠ none) :
      mediaSpecificity item.definition.mediaType media ≤ mediaSpecificity selected.definition.mediaType media :=
    le_mostSpecific isSelected isScored
  obtain ⟨range, isRange⟩ := Option.ne_none_iff_exists'.mp (of_decide_eq_true hasMedia)
  have nonnegative := (of_decide_eq_true positive).trans (most isScored)
  rw [isRange] at most nonnegative
  obtain ⟨form, specificity, score⟩ := mediaSpecificity_nonneg.mp nonnegative
  refine ⟨member, range, form, isRange, specificity, ?_⟩
  intro item inItems otherRange otherForm isOther covers
  have otherScored : item ∈ items.filter fun item => item.definition.mediaType ≠ none :=
    List.mem_filter.mpr ⟨inItems, decide_eq_true (by rw [isOther]; exact Option.some_ne_none _)⟩
  have atMost := most otherScored
  rw [isOther, score] at atMost
  exact (rank_le_mediaSpecificity covers).trans atMost

end Media

/-! ### The status -/

theorem candidatesFor_eq_nil_iff : candidatesFor contract statusKey = [] ↔
    contract.any (fun item => item.definition.statusCode = statusKey) = false := by
  rw [candidatesFor, List.filter_eq_nil_iff, List.any_eq_false]

theorem validateStatus_eq (keys : List Text) : validateStatus accepts contract result keys =
    match keys.find? fun key => contract.any fun item => item.definition.statusCode = key with
    | none => .error responseContractMismatch
    | some statusKey =>
      obtain? (selectMedia (candidatesFor contract statusKey) result.contentType result.data) responseContractMismatch >>=
        fun selected => validateSelected accepts selected result.data := by
  induction keys with
  | nil => rfl
  | cons key rest ih =>
    rw [validateStatus, List.find?_cons]
    cases declared : contract.any fun item => item.definition.statusCode = key with
    | false => rw [if_pos (candidatesFor_eq_nil_iff.mpr declared), ih]
    | true =>
      have someCandidate : candidatesFor contract key ≠ [] := by
        rw [ne_eq, candidatesFor_eq_nil_iff, declared]
        decide
      rw [if_neg someCandidate]

theorem mem_candidatesFor {item : CompiledResponseDefinition} :
    item ∈ candidatesFor (definitions.map compileDefinition) statusKey ↔
      ∃ definition ∈ definitions, definition.statusCode = statusKey ∧ compileDefinition definition = item := by
  rw [candidatesFor, List.mem_filter, List.mem_map]
  constructor
  · rintro ⟨⟨definition, declared, rfl⟩, sameStatus⟩
    exact ⟨definition, declared, of_decide_eq_true sameStatus, rfl⟩
  · rintro ⟨definition, declared, sameStatus, rfl⟩
    exact ⟨⟨definition, declared, rfl⟩, decide_eq_true sameStatus⟩

theorem answersEmpty_iff {data : Json} : AnswersEmpty definitions statusKey data ↔
    HasBodyless (candidatesFor (definitions.map compileDefinition) statusKey) data := by
  refine and_congr_right fun _ => ?_
  constructor
  · rintro ⟨definition, declared, sameStatus, noMedia⟩
    exact ⟨_, mem_candidatesFor.mpr ⟨definition, declared, sameStatus, rfl⟩, noMedia⟩
  · rintro ⟨item, member, noMedia⟩
    obtain ⟨definition, declared, sameStatus, rfl⟩ := mem_candidatesFor.mp member
    exact ⟨definition, declared, sameStatus, noMedia⟩

theorem mostSpecificStatus_iff : MostSpecificStatus definitions result.statusCode statusKey ↔
    (statusKeys result.statusCode).find? (fun key => (definitions.map compileDefinition).any fun item =>
      item.definition.statusCode = key) = some statusKey := by
  simp only [MostSpecificStatus, List.any_map]
  rfl

/-- What is selected among the responses of the most specific status is what the result has to match. -/
theorem dispatched_of_selected {selected : CompiledResponseDefinition}
    (status : MostSpecificStatus definitions result.statusCode statusKey)
    (isSelected : selectMedia (candidatesFor (definitions.map compileDefinition) statusKey) result.contentType result.data =
      some selected) :
    ∃ definition, Dispatched definitions result definition ∧ definition.statusCode = statusKey ∧
      selected = compileDefinition definition := by
  by_cases bodyless : HasBodyless (candidatesFor (definitions.map compileDefinition) statusKey) result.data
  · obtain ⟨item, member, noMedia, taken⟩ := @selectMedia_of_hasBodyless _ result.contentType _ bodyless
    rw [isSelected] at taken
    cases taken
    obtain ⟨definition, declared, rfl, rfl⟩ := mem_candidatesFor.mp member
    exact ⟨definition, ⟨declared, status, fun _ => noMedia,
      fun body => absurd (answersEmpty_iff.mpr bodyless) body⟩, rfl, rfl⟩
  · obtain ⟨member, range, form, isRange, specificity, most⟩ := selectMedia_eq_some bodyless isSelected
    obtain ⟨definition, declared, rfl, rfl⟩ := mem_candidatesFor.mp member
    refine ⟨definition, ⟨declared, status, fun empty => absurd (answersEmpty_iff.mp empty) bodyless,
      fun _ => ⟨range, form, isRange, specificity, ?_⟩⟩, rfl, rfl⟩
    intro other isDeclared sameStatus
    exact most _ (mem_candidatesFor.mpr ⟨other, isDeclared, sameStatus, rfl⟩)

/-- When nothing is selected there is nothing the result could match. -/
theorem not_dispatched_of_not_selected (status : MostSpecificStatus definitions result.statusCode statusKey)
    (nothing : selectMedia (candidatesFor (definitions.map compileDefinition) statusKey) result.contentType result.data =
      none) :
    ¬ Dispatched definitions result definition := by
  intro dispatched
  have sameStatus : definition.statusCode = statusKey := Option.some.inj (dispatched.status.symm.trans status)
  by_cases bodyless : HasBodyless (candidatesFor (definitions.map compileDefinition) statusKey) result.data
  · obtain ⟨item, -, -, taken⟩ := @selectMedia_of_hasBodyless _ result.contentType _ bodyless
    rw [nothing] at taken
    cases taken
  · have body : ¬ AnswersEmpty definitions definition.statusCode result.data := by
      rw [sameStatus, answersEmpty_iff]
      exact bodyless
    obtain ⟨range, form, isRange, mostSpecific⟩ := dispatched.media body
    exact (selectMedia_eq_none bodyless).mp nothing _
      (mem_candidatesFor.mpr ⟨definition, dispatched.declared, sameStatus, rfl⟩) range form isRange
      mostSpecific.specificity.covers

theorem validateSelected_compileDefinition {data : Json} (bodyless : definition.mediaType = none → isNone data = true) :
    validateSelected accepts (compileDefinition definition) data = .ok () ↔ AcceptsBody accepts definition data := by
  unfold validateSelected AcceptsBody compileDefinition
  cases definition.schema with
  | some schema => simp
  | none =>
    refine iff_of_true ?_ nofun
    rw [ensure_eq_ok]
    cases isEmpty : isNone data with
    | true => simp
    | false =>
      have hasMedia : definition.mediaType ≠ none := fun noMedia => by
        rw [bodyless noMedia] at isEmpty
        cases isEmpty
      simp [hasMedia]

theorem Dispatched.isEmpty (dispatched : Dispatched definitions result definition) (noMedia : definition.mediaType = none) :
    isNone result.data = true := by
  by_contra body
  obtain ⟨range, form, isRange, -⟩ := dispatched.media fun empty => body empty.1
  rw [noMedia] at isRange
  cases isRange

/-- The result is judged by the declared response it has to match, and refused without one. -/
theorem validateUpstreamResponse_spec (noError : result.isError = false) :
    (∃ definition, Dispatched definitions result definition ∧
      selectMedia (candidatesFor (definitions.map compileDefinition) definition.statusCode) result.contentType result.data =
        some (compileDefinition definition) ∧
      (validateUpstreamResponse accepts (definitions.map compileDefinition) result = .ok () ↔
        AcceptsBody accepts definition result.data)) ∨
    ((∀ definition, ¬ Dispatched definitions result definition) ∧
      validateUpstreamResponse accepts (definitions.map compileDefinition) result = .error responseContractMismatch) := by
  have judged : validateUpstreamResponse accepts (definitions.map compileDefinition) result =
      validateStatus accepts (definitions.map compileDefinition) result (statusKeys result.statusCode) := by
    rw [validateUpstreamResponse, noError]
    rfl
  rw [judged, validateStatus_eq]
  cases found : (statusKeys result.statusCode).find? fun key =>
      (definitions.map compileDefinition).any fun item => item.definition.statusCode = key with
  | none =>
    refine .inr ⟨fun definition dispatched => ?_, rfl⟩
    have status := mostSpecificStatus_iff.mp dispatched.status
    rw [found] at status
    cases status
  | some statusKey =>
    have status := mostSpecificStatus_iff.mpr found
    dsimp only
    cases isSelected : selectMedia (candidatesFor (definitions.map compileDefinition) statusKey) result.contentType
        result.data with
    | none => exact .inr ⟨fun _ => not_dispatched_of_not_selected status isSelected, rfl⟩
    | some selected =>
      obtain ⟨definition, dispatched, rfl, rfl⟩ := dispatched_of_selected status isSelected
      exact .inl ⟨definition, dispatched, isSelected, validateSelected_compileDefinition dispatched.isEmpty⟩

/-! ### The order of the responses -/

/-- No two ranges of one status are equally specific for the media type. -/
def NoTies (definitions : List ResponseDefinition) (media : Text) : Prop :=
  ∀ left ∈ definitions, ∀ right ∈ definitions, left.statusCode = right.statusCode →
    ∀ leftRange rightRange form, left.mediaType = some leftRange → right.mediaType = some rightRange →
      Specificity leftRange media form → Specificity rightRange media form → leftRange = rightRange

theorem Dispatched.unique (distinct : (definitions.map responseIdentity).Nodup)
    (noTies : NoTies definitions result.contentType) (dispatched : Dispatched definitions result definition)
    (others : Dispatched definitions result other) : definition = other := by
  have sameStatus : definition.statusCode = other.statusCode :=
    Option.some.inj (dispatched.status.symm.trans others.status)
  have sameMedia : definition.mediaType = other.mediaType := by
    by_cases empty : AnswersEmpty definitions definition.statusCode result.data
    · rw [dispatched.bodyless empty, others.bodyless (sameStatus ▸ empty)]
    · obtain ⟨range, form, isRange, most⟩ := dispatched.media empty
      obtain ⟨otherRange, otherForm, isOtherRange, otherMost⟩ := others.media (sameStatus ▸ empty)
      have sameForm : form = otherForm := eq_of_rank (le_antisymm
        (otherMost.most definition dispatched.declared sameStatus range form isRange most.specificity.covers)
        (most.most other others.declared sameStatus.symm otherRange otherForm isOtherRange otherMost.specificity.covers))
      subst sameForm
      rw [isRange, isOtherRange, noTies definition dispatched.declared other others.declared sameStatus range otherRange form
        isRange isOtherRange most.specificity otherMost.specificity]
  exact List.inj_on_of_nodup_map distinct dispatched.declared others.declared (Prod.ext sameStatus sameMedia)

theorem Dispatched.perm (perm : order.Perm definitions) (dispatched : Dispatched definitions result definition) :
    Dispatched order result definition := by
  have sameEmpty : AnswersEmpty order definition.statusCode result.data ↔
      AnswersEmpty definitions definition.statusCode result.data := by
    simp only [AnswersEmpty, perm.mem_iff]
  refine ⟨perm.mem_iff.mpr dispatched.declared, ?_, fun empty => dispatched.bodyless (sameEmpty.mp empty), ?_⟩
  · have sameAny (key : Text) : order.any (fun definition => definition.statusCode = key) =
        definitions.any fun definition => definition.statusCode = key := perm.any_eq
    unfold MostSpecificStatus
    simp only [sameAny]
    exact dispatched.status
  · intro body
    obtain ⟨range, form, isRange, specificity, most⟩ := dispatched.media fun empty => body (sameEmpty.mpr empty)
    exact ⟨range, form, isRange, specificity, fun other declared => most other (perm.mem_iff.mp declared)⟩

theorem compileResponseContract_eq_ok : compileResponseContract platform tool = .ok contract ↔
    Succeeds (compileResponseContract platform tool) ∧ contract = tool.responses.map compileDefinition := by
  constructor
  · intro compiled
    exact ⟨⟨contract, compiled⟩, compileResponses_eq_map compiled⟩
  · rintro ⟨⟨other, compiled⟩, rfl⟩
    rw [← compileResponses_eq_map compiled]
    exact compiled

theorem succeeds_compileResponseContract_perm (perm : order.Perm tool.responses)
    (compiled : Succeeds (compileResponseContract platform tool)) :
    Succeeds (compileResponseContract platform { tool with responses := order }) := by
  rw [compileResponseContract, succeeds_compileResponses_iff] at compiled ⊢
  obtain ⟨distinct, -, schemas⟩ := compiled
  exact ⟨(perm.map responseIdentity).nodup_iff.mpr distinct, fun _ _ => List.not_mem_nil,
    fun definition declared => schemas definition (perm.mem_iff.mp declared)⟩

theorem validateUpstreamResponse_perm (distinct : (definitions.map responseIdentity).Nodup)
    (noTies : NoTies definitions result.contentType) (noError : result.isError = false) (perm : order.Perm definitions) :
    validateUpstreamResponse accepts (order.map compileDefinition) result = .ok () ↔
      validateUpstreamResponse accepts (definitions.map compileDefinition) result = .ok () := by
  rcases @validateUpstreamResponse_spec accepts definitions result noError with
    ⟨definition, dispatched, -, judged⟩ | ⟨unmatched, refused⟩
  · rcases @validateUpstreamResponse_spec accepts order result noError with ⟨other, others, -, judgedOther⟩ | ⟨unmatched, -⟩
    · rw [judged, judgedOther, Dispatched.unique distinct noTies dispatched (others.perm perm.symm)]
    · exact absurd (dispatched.perm perm) (unmatched definition)
  · rcases @validateUpstreamResponse_spec accepts order result noError with ⟨other, others, -⟩ | ⟨-, refusedOther⟩
    · exact absurd (others.perm perm.symm) (unmatched other)
    · rw [refused, refusedOther]

end Dispatch

/-- A result is judged by the response that is declared for the most specific status and media range, and the order of the
responses does not matter unless two ranges tie. -/
theorem response_dispatch (platform : Platform) (accepts : JsonObject → Json → Bool) (tool : MCPTool)
    (contract : List CompiledResponseDefinition) (result : UpstreamResult)
    (compiled : compileResponseContract platform tool = .ok contract) (noError : result.isError = false) :
    ((∃ definition, Dispatched tool.responses result definition ∧
        selectMedia (candidatesFor contract definition.statusCode) result.contentType result.data =
          some (compileDefinition definition) ∧
        (validateUpstreamResponse accepts contract result = .ok () ↔ AcceptsBody accepts definition result.data)) ∨
      ((∀ definition, ¬ Dispatched tool.responses result definition) ∧
        validateUpstreamResponse accepts contract result = .error responseContractMismatch)) ∧
    (NoTies tool.responses result.contentType → ∀ order, order.Perm tool.responses → ∃ reordered,
      compileResponseContract platform { tool with responses := order } = .ok reordered ∧
        (validateUpstreamResponse accepts reordered result = .ok () ↔
          validateUpstreamResponse accepts contract result = .ok ())) := by
  obtain ⟨succeeds, rfl⟩ := compileResponseContract_eq_ok.mp compiled
  refine ⟨validateUpstreamResponse_spec noError, fun noTies order perm => ?_⟩
  have distinct := (succeeds_compileResponses_iff.mp succeeds).1
  exact ⟨order.map compileDefinition, compileResponseContract_eq_ok.mpr
    ⟨succeeds_compileResponseContract_perm perm succeeds, rfl⟩, validateUpstreamResponse_perm distinct noTies noError perm⟩

/-- A tool that answers with a schema for JSON and anything else for the class. -/
def answeringTool : MCPTool where
  name := "get_pet"
  title := "get"
  description := "Get"
  inputSchema := []
  responses := [okResponse, { statusCode := "2XX", mediaType := some "*/*" }, { statusCode := "2XX" }]
  operationKey := "get"
  requestMapping := { serverRef := "main", method := .get, path := "/pets" }

def isObject : Json → Bool
  | .object _ => true
  | _ => false

/-- The responses of the tool the other way round. -/
theorem answeringTool_reordered : ∃ reordered,
    compileResponseContract plainPlatform { answeringTool with responses := answeringTool.responses.reverse } =
      .ok reordered ∧
    (validateUpstreamResponse (fun _ => isObject) reordered ⟨200, "application/json", .text "pet"⟩ = .ok () ↔
      validateUpstreamResponse (fun _ => isObject) (answeringTool.responses.map compileDefinition)
        ⟨200, "application/json", .text "pet"⟩ = .ok ()) := by
  have noTies : NoTies answeringTool.responses "application/json" := by
    intro left leftDeclared right rightDeclared same leftRange rightRange form isLeft isRight _ _
    have declared : answeringTool.responses =
        [okResponse, { statusCode := "2XX", mediaType := some "*/*" }, { statusCode := "2XX" }] := rfl
    rw [declared, List.mem_cons, List.mem_cons, List.mem_singleton] at leftDeclared rightDeclared
    rcases leftDeclared with rfl | rfl | rfl <;> rcases rightDeclared with rfl | rfl | rfl <;> cases isLeft <;>
      cases isRight <;> first | rfl | exact absurd same (by decide)
  exact (response_dispatch plainPlatform (fun _ => isObject) answeringTool _ ⟨200, "application/json", .text "pet"⟩ rfl rfl).2
    noTies answeringTool.responses.reverse (List.reverse_perm _)

end Mcplica.Runtime
