import Mcplica.Runtime.SampledNumbers

/-! # Sampled values by type

Texts, arrays and objects, and which of the types of a schema is sampled. Each sample is a `ValueError` where the schema
raises, or a value of the type. -/

namespace Mcplica.Runtime.Sampling

open Mcplica.Library Mcplica.Contracts

variable {tools : Tools} {root schema : JsonObject}

/-! ## Lengths -/

section

variable {recurse : JsonObject → Except SampleFailure Json} {required : List Text} {includeOptional : Bool}

end

section

variable {recurse : JsonObject → Except SampleFailure Json} {includeOptional : Bool}

end

/-! ## Types -/

section

variable {recurse : JsonObject → Except SampleFailure Json} {includeOptional : Bool} {raises : JsonObject → Prop}

end

end Mcplica.Runtime.Sampling
