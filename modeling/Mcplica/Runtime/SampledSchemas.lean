import Mcplica.Runtime.SampledTypes

/-! # Sampled schemas

The sample of a schema in the keywords that `Acceptance` gives a meaning: level by level, either a `ValueError` where the
schema raises, or a value that the schema accepts where it fits. -/

namespace Mcplica.Runtime.Sampling

open Mcplica.Library Mcplica.Contracts
open Doubles (nearest IsDouble)

variable {tools : Tools} {root schema : JsonObject}

/-! ## What is known of a sample -/

section

variable {recurse : JsonObject → Except SampleFailure Json} {includeOptional : Bool} {raises fits : JsonObject → Prop}
  {alone : Prop}

/-- The sample of the schema is accepted where it fits, and fits where it is accepted. -/
structure Agrees (root : JsonObject) (fits : JsonObject → Prop) (alone : Prop) (schema : JsonObject) (value : Json) : Prop where
  accepts : fits schema → Accepts root schema value
  fits : alone → Accepts root schema value → fits schema

def Sampled (root : JsonObject) (raises fits : JsonObject → Prop) (alone : Prop) (schema : JsonObject)
    (result : Except SampleFailure Json) : Prop :=
  (raises schema ∧ result = .error .value) ∨
    (¬ raises schema ∧ ∃ value, result = .ok value ∧ Agrees root fits alone schema value)

theorem Sampled.agrees {within : JsonObject} {value : Json}
    (sampled : Sampled root raises fits alone within (recurse within)) (isSampled : recurse within = .ok value) :
    Agrees root fits alone within value := by
  rcases sampled with ⟨-, fails⟩ | ⟨-, other, isOther, agrees⟩
  · rw [fails] at isSampled
    cases isSampled
  · rw [isOther] at isSampled
    cases isSampled
    exact agrees

theorem PreciseWithin.imp {known other : JsonObject → Prop} (all : ∀ within, known within → other within)
    (holds : PreciseWithin includeOptional known schema) : PreciseWithin includeOptional other schema where
  properties isKind name within isProperty visited := all within (holds.properties isKind name within isProperty visited)
  items isKind notZero within isWithin := all within (holds.items isKind notZero within isWithin)
  integer := holds.integer
  number := holds.number

end

/-! ## References -/

section

variable {raises fits : JsonObject → Prop} {alone : Prop} {recurse : JsonObject → Except SampleFailure Json}
  {includeOptional : Bool}

end

/-! ## The sample of a whole schema -/

end Mcplica.Runtime.Sampling
