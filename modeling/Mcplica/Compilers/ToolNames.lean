import Mcplica.Compilers.Compiler
import Mcplica.Parsers.Identifiers

/-! # The names of the tools

`_tool_names` on seeds that `tool_name_seed` made: the names are distinct, they fit the contract's pattern and they
do not depend on the order in which the operations are listed. -/

namespace Mcplica.Compilers

open Mcplica.Library Mcplica.Contracts
open Mcplica.Parsers (Named isNameCharacter)

variable {hashing : Hashing} {operations : List CanonicalOperation}

/-! ## Patterns -/

theorem isToolName_iff {name : Text} : isToolName name = true ↔ Named 128 name := by
  cases name with
  | nil =>
    refine ⟨fun isName => ?_, fun named => absurd rfl named.nonempty⟩
    cases isName
  | cons first rest =>
    simp only [isToolName, Bool.and_eq_true, decide_eq_true_eq, List.all_eq_true]
    constructor
    · rintro ⟨⟨isFirst, short⟩, characters⟩
      refine ⟨List.cons_ne_nil first rest, ?_, ?_, Nat.succ_le_succ short⟩
      · show first.isDigit = false
        by_contra isDigit
        rw [Bool.not_eq_false, Parsers.isDigit_iff] at isDigit
        rw [Bool.or_eq_true, Parsers.isLower_iff, decide_eq_true_eq] at isFirst
        rcases isFirst with isLower | rfl
        · omega
        · simp at isDigit
      · intro character member
        rcases List.mem_cons.mp member with rfl | inRest
        · rw [isNameCharacter, Bool.or_right_comm, isFirst, Bool.true_or]
        · exact characters character inRest
    · intro named
      have isFirst := named.characters first List.mem_cons_self
      have noDigit : first.isDigit = false := named.start
      simp only [isNameCharacter, noDigit, Bool.or_false] at isFirst
      refine ⟨⟨isFirst, Nat.le_of_succ_le_succ named.short⟩, ?_⟩
      intro character member
      exact named.characters character (List.mem_cons_of_mem _ member)

/-- What is appended to a name does not matter as long as it consists of the characters of names. -/
theorem isToolName_append_iff {start ending : Text} (nonempty : start ≠ [])
    (characters : ∀ character ∈ ending, isNameCharacter character = true) (short : (start ++ ending).length ≤ 128) :
    isToolName (start ++ ending) = true ↔ isToolName start = true := by
  rw [isToolName_iff, isToolName_iff]
  constructor
  · intro named
    refine ⟨nonempty, ?_, fun character member => named.characters character (List.mem_append_left _ member), ?_⟩
    · rw [← List.head?_append_of_ne_nil start nonempty]
      exact named.start
    · rw [List.length_append] at short
      omega
  · intro named
    refine ⟨List.append_ne_nil_of_left_ne_nil nonempty _, ?_, ?_, short⟩
    · rw [List.head?_append_of_ne_nil start nonempty]
      exact named.start
    · intro character member
      rcases List.mem_append.mp member with inStart | inEnding
      · exact named.characters character inStart
      · exact characters character inEnding

theorem isNameCharacter_hexdigest (digest : Sha256) : ∀ character ∈ digest.hexdigest, isNameCharacter character = true := by
  have isHex := digest.isHex
  simp only [isSha256, Bool.and_eq_true, List.all_eq_true, List.contains_iff_mem] at isHex
  have each : ∀ character ∈ ("0123456789abcdef" : Text), isNameCharacter character = true :=
    Text.forall_of_all (by decide)
  intro character member
  exact each character (isHex.2 character member)

/-- What the digest of a key adds to a seed. -/
def keySuffix (digest : Sha256) : Text :=
  '_' :: digest.hexdigest.take 8

theorem isNameCharacter_keySuffix (digest : Sha256) : ∀ character ∈ keySuffix digest, isNameCharacter character = true := by
  intro character member
  rcases List.mem_cons.mp member with rfl | inDigest
  · rfl
  · exact isNameCharacter_hexdigest digest character (List.mem_of_mem_take inDigest)

theorem length_keySuffix (digest : Sha256) : (keySuffix digest).length ≤ 9 :=
  Nat.succ_le_succ (List.length_take_le 8 _)

theorem isToolName_suffixed_iff {seed : Text} (nonempty : seed ≠ []) (digest : Sha256) :
    isToolName (seed.take 110 ++ keySuffix digest) = true ↔ isToolName (seed.take 110) = true := by
  refine isToolName_append_iff ?_ (isNameCharacter_keySuffix digest) ?_
  · intro nothing
    rcases List.take_eq_nil_iff.mp nothing with impossible | empty
    · cases impossible
    · exact nonempty empty
  · have start := List.length_take_le 110 seed
    have ending := length_keySuffix digest
    rw [List.length_append]
    omega

/-! ## Seeds -/

/-- The seed of every operation comes from `tool_name_seed`. -/
def Seeded (operations : List CanonicalOperation) : Prop :=
  ∀ operation ∈ operations, ∃ method path operationId,
    operation.toolNameSeed = Parsers.toolNameSeed method path operationId

theorem Seeded.named (seeded : Seeded operations) {operation : CanonicalOperation} (member : operation ∈ operations) :
    Named 96 operation.toolNameSeed := by
  obtain ⟨method, path, operationId, isSeed⟩ := seeded operation member
  rw [isSeed]
  exact Parsers.toolNameSeed_named method path operationId

/-! ## The order of naming -/

theorem mem_namingOrder {operation : CanonicalOperation} :
    operation ∈ namingOrder operations ↔ operation ∈ operations := by
  simp only [namingOrder, List.mem_flatMap, Text.mem_sorted, List.mem_dedup, Text.mem_sortedBy, List.mem_filter,
    decide_eq_true_eq]
  constructor
  · rintro ⟨_, _, member, _⟩
    exact member
  · intro member
    exact ⟨operation.toolNameSeed, List.mem_map_of_mem member, member, rfl⟩

/-- Operations with distinct keys are named each once. -/
theorem namingOrder_perm (keys : (operations.map CanonicalOperation.key).Nodup) :
    (namingOrder operations).Perm operations := by
  have distinct : operations.Nodup := keys.of_map
  refine (List.perm_ext_iff_of_nodup ?_ distinct).mpr fun operation => mem_namingOrder
  refine List.nodup_flatMap.mpr ⟨?_, ?_⟩
  · intro seed _
    exact (Text.perm_sortedBy _ _).nodup_iff.mpr (distinct.filter _)
  · have seeds : (Text.sorted (operations.map CanonicalOperation.toolNameSeed).dedup).Nodup :=
      (Text.perm_sortedBy id _).nodup_iff.mpr (List.nodup_dedup _)
    refine seeds.imp ?_
    intro left right different operation inLeft inRight
    simp only [Text.mem_sortedBy, List.mem_filter, decide_eq_true_eq] at inLeft inRight
    exact different (inLeft.2.symm.trans inRight.2)

theorem namingOrder_eq_of_perm {others : List CanonicalOperation}
    (keys : (operations.map CanonicalOperation.key).Nodup) (perm : operations.Perm others) :
    namingOrder operations = namingOrder others := by
  have seeds : Text.sorted (operations.map CanonicalOperation.toolNameSeed).dedup =
      Text.sorted (others.map CanonicalOperation.toolNameSeed).dedup :=
    Text.sorted_eq_of_perm (perm.map _).dedup
  have groups : ∀ seed, Text.sortedBy CanonicalOperation.key (operations.filter fun operation => operation.toolNameSeed = seed) =
      Text.sortedBy CanonicalOperation.key (others.filter fun operation => operation.toolNameSeed = seed) := by
    intro seed
    refine Text.sortedBy_eq_of_perm (perm.filter _) ?_
    intro left isLeft right isRight same
    exact List.inj_on_of_nodup_map keys (List.mem_of_mem_filter isLeft) (List.mem_of_mem_filter isRight) same
  unfold namingOrder
  rw [seeds]
  exact List.flatMap_congr fun seed _ => groups seed

theorem addToolName_eq_of_perm {others : List CanonicalOperation} (perm : operations.Perm others) :
    addToolName hashing operations = addToolName hashing others := by
  funext named operation
  unfold addToolName
  dsimp only
  rw [(perm.filter fun other => other.toolNameSeed = operation.toolNameSeed).length_eq]

/-! ## Names so far -/

/-- Another operation has the same seed. -/
def sharedSeed (operations : List CanonicalOperation) (operation : CanonicalOperation) : Bool :=
  1 < (operations.filter fun other => other.toolNameSeed = operation.toolNameSeed).length

/-- What is kept of the seed fits the pattern of tool names. -/
def seedFits (operations : List CanonicalOperation) (operation : CanonicalOperation) : Bool :=
  isToolName (if sharedSeed operations operation then operation.toolNameSeed.take 110 else operation.toolNameSeed)

theorem seedFits_of_named {operation : CanonicalOperation} (seed : Named 96 operation.toolNameSeed) :
    seedFits operations operation = true := by
  unfold seedFits
  split
  · exact isToolName_iff.mpr ((seed.take (by decide)).longer (by decide))
  · exact isToolName_iff.mpr (seed.longer (by decide))

theorem eq_of_not_sharedSeed {left right : CanonicalOperation} (isLeft : left ∈ operations) (isRight : right ∈ operations)
    (same : right.toolNameSeed = left.toolNameSeed) (unshared : sharedSeed operations left = false) : right = left := by
  have leftListed : left ∈ operations.filter fun other => other.toolNameSeed = left.toolNameSeed :=
    List.mem_filter.mpr ⟨isLeft, by simp⟩
  have rightListed : right ∈ operations.filter fun other => other.toolNameSeed = left.toolNameSeed :=
    List.mem_filter.mpr ⟨isRight, by simpa using same⟩
  simp only [sharedSeed, decide_eq_false_iff_not, Nat.not_lt] at unshared
  generalize operations.filter _ = listed at leftListed rightListed unshared
  match listed with
  | [] => cases leftListed
  | [only] => rw [List.mem_singleton.mp leftListed, List.mem_singleton.mp rightListed]
  | _ :: _ :: _ =>
    simp only [List.length_cons] at unshared
    omega

/-- A name is the seed of its operation or a shortened seed with a digest. -/
structure NameOf (operations : List CanonicalOperation) (operation : CanonicalOperation) (name : Text) : Prop where
  form : (name = operation.toolNameSeed ∧ sharedSeed operations operation = false) ∨
    ∃ digest, name = operation.toolNameSeed.take 110 ++ keySuffix digest
  pattern : isToolName name = true ↔ seedFits operations operation = true

/-- A seed that is some other operation's shortened seed with its digest loses nothing that matters. -/
theorem isToolName_take_iff {seed start : Text} {digest : Sha256} (nonempty : seed ≠ [])
    (isSeed : seed = start.take 110 ++ keySuffix digest) :
    isToolName (seed.take 110) = true ↔ isToolName seed = true := by
  have lengths : (start.take 110).length ≤ 110 := List.length_take_le 110 start
  have ending : ∀ character ∈ seed.drop 110, isNameCharacter character = true := by
    intro character member
    rw [isSeed, List.drop_append, List.drop_eq_nil_of_le lengths, List.nil_append] at member
    exact isNameCharacter_keySuffix digest character (List.mem_of_mem_drop member)
  have short : (seed.take 110 ++ seed.drop 110).length ≤ 128 := by
    have suffix := length_keySuffix digest
    rw [List.take_append_drop, isSeed, List.length_append]
    omega
  have notEmpty : seed.take 110 ≠ [] := by
    intro nothing
    rcases List.take_eq_nil_iff.mp nothing with impossible | empty
    · cases impossible
    · exact nonempty empty
  have both := isToolName_append_iff notEmpty ending short
  rw [List.take_append_drop] at both
  exact both.symm

theorem addToolName_nameOf {read : List CanonicalOperation} {named next : List (Text × Text)}
    {operation : CanonicalOperation} (within : ∀ other ∈ read, other ∈ operations) (member : operation ∈ operations)
    (isNew : operation ∉ read) (nonempty : operation.toolNameSeed ≠ [])
    (earlier : ∀ entry ∈ named, ∃ other ∈ read, NameOf operations other entry.2)
    (added : addToolName hashing operations named operation = .ok next) :
    ∃ name, next = named ++ [(operation.key, name)] ∧ name ∉ named.map Prod.snd ∧ NameOf operations operation name := by
  simp only [addToolName, check_bind_eq_ok, ensure_eq_ok] at added
  obtain ⟨free, same⟩ := added
  cases same
  refine ⟨_, rfl, by simpa using free, ?_⟩
  have suffixed := isToolName_suffixed_iff nonempty (hashing.ofText operation.key)
  by_cases shared : sharedSeed operations operation = true
  · have isShared : 1 < (operations.filter fun other => other.toolNameSeed = operation.toolNameSeed).length := by
      simpa [sharedSeed] using shared
    rw [decide_eq_true isShared, Bool.true_or, if_pos rfl]
    refine ⟨.inr ⟨hashing.ofText operation.key, rfl⟩, ?_⟩
    rw [seedFits, if_pos shared]
    exact suffixed
  · rw [Bool.not_eq_true] at shared
    have unshared : ¬ 1 < (operations.filter fun other => other.toolNameSeed = operation.toolNameSeed).length := by
      simpa [sharedSeed] using shared
    rw [decide_eq_false unshared, Bool.false_or]
    by_cases used : (named.map Prod.snd).contains operation.toolNameSeed = true
    · rw [if_pos used]
      refine ⟨.inr ⟨hashing.ofText operation.key, rfl⟩, ?_⟩
      rw [seedFits, if_neg (by simp [shared])]
      -- The seed is the name of an earlier operation, and no other operation has it as a seed.
      obtain ⟨entry, isEntry, isSeed⟩ := List.mem_map.mp (List.contains_iff_mem.mp used)
      obtain ⟨other, isOther, nameOf⟩ := earlier entry isEntry
      rcases nameOf.form with ⟨isName, -⟩ | ⟨digest, isName⟩
      · rw [isSeed] at isName
        have equal := eq_of_not_sharedSeed member (within other isOther) isName.symm shared
        rw [equal] at isOther
        exact absurd isOther isNew
      · rw [isSeed] at isName
        exact suffixed.trans (isToolName_take_iff nonempty isName)
    · rw [if_neg used]
      refine ⟨.inl ⟨rfl, shared⟩, ?_⟩
      rw [seedFits, if_neg (by simp [shared])]

structure NamesOf (operations read : List CanonicalOperation) (names : List (Text × Text)) : Prop where
  keys : names.map Prod.fst = read.map CanonicalOperation.key
  unique : (names.map Prod.snd).Nodup
  names : ∀ entry ∈ names, ∃ operation ∈ read, entry.1 = operation.key ∧ NameOf operations operation entry.2

theorem namesOf_nil : NamesOf operations [] [] where
  keys := rfl
  unique := List.nodup_nil
  names _ member := by cases member

theorem NamesOf.addToolName {read : List CanonicalOperation} {named next : List (Text × Text)}
    {operation : CanonicalOperation} (namesOf : NamesOf operations read named) (within : ∀ other ∈ read, other ∈ operations)
    (member : operation ∈ operations) (isNew : operation ∉ read) (nonempty : operation.toolNameSeed ≠ [])
    (added : addToolName hashing operations named operation = .ok next) :
    NamesOf operations (read ++ [operation]) next := by
  obtain ⟨name, rfl, free, nameOf⟩ := addToolName_nameOf within member isNew nonempty
    (fun entry isEntry => (namesOf.names entry isEntry).imp fun _ both => ⟨both.1, both.2.2⟩) added
  constructor
  · rw [List.map_append, List.map_append, namesOf.keys]
    rfl
  · rw [List.map_append]
    exact namesOf.unique.append (List.nodup_singleton _) (by simpa using free)
  · intro entry isEntry
    rcases List.mem_append.mp isEntry with old | isLast
    · obtain ⟨other, isOther, spec⟩ := namesOf.names entry old
      exact ⟨other, List.mem_append_left _ isOther, spec⟩
    · rw [List.mem_singleton.mp isLast]
      exact ⟨operation, List.mem_append_right _ List.mem_cons_self, rfl, nameOf⟩

/-! ## All names -/

theorem toolNames_spec {names : List (Text × Text)} (keys : (operations.map CanonicalOperation.key).Nodup)
    (nonempty : ∀ operation ∈ operations, operation.toolNameSeed ≠ [])
    (ran : toolNames hashing operations = .ok names) : NamesOf operations (namingOrder operations) names := by
  have distinct : (namingOrder operations).Nodup := (namingOrder_perm keys).nodup_iff.mpr keys.of_map
  refine foldlM_induction (fun read names => (∀ other ∈ read, other ∈ operations) → read.Nodup →
    NamesOf operations read names) (fun _ _ => namesOf_nil) ?_ ran (fun other => mem_namingOrder.mp) distinct
  intro read named operation next holds added within unique
  rw [List.nodup_append] at unique
  have isNew : operation ∉ read := fun isRead => unique.2.2 operation isRead operation List.mem_cons_self rfl
  have readWithin : ∀ other ∈ read, other ∈ operations := fun other isOther =>
    within other (List.mem_append_left _ isOther)
  have member := within operation (List.mem_append_right _ List.mem_cons_self)
  exact (holds readWithin unique.1).addToolName readWithin member isNew (nonempty operation member) added

theorem addToolName_error {named : List (Text × Text)} {operation : CanonicalOperation} {failure : CompileFailure}
    (failed : addToolName hashing operations named operation = .error failure) :
    failure = compileError operation "stable tool-name collision" := by
  simp only [addToolName, bind_eq_error] at failed
  rcases failed with refused | ⟨_, _, impossible⟩
  · exact (ensure_eq_error.mp refused).2.symm
  · cases impossible

/-- The names of the tools are distinct and fit the pattern unless the digests of two keys collide, and they are the
same in whatever order the operations are listed. -/
theorem tool_names_stable (keys : (operations.map CanonicalOperation.key).Nodup) (seeded : Seeded operations) :
    ((∃ operation ∈ operations, toolNames hashing operations =
        .error (compileError operation "stable tool-name collision")) ∨
      ∃ names, toolNames hashing operations = .ok names ∧
        (names.map Prod.fst).Perm (operations.map CanonicalOperation.key) ∧ (names.map Prod.snd).Nodup ∧
        ∀ name ∈ names.map Prod.snd, isToolName name = true) ∧
    ∀ others, operations.Perm others → toolNames hashing others = toolNames hashing operations := by
  refine ⟨?_, ?_⟩
  · cases ran : toolNames hashing operations with
    | error failure =>
      obtain ⟨operation, member, named, failed⟩ := exists_of_foldlM_error ran
      exact .inl ⟨operation, mem_namingOrder.mp member, by rw [addToolName_error failed]⟩
    | ok names =>
      have namesOf := toolNames_spec keys (fun operation member => (seeded.named member).nonempty) ran
      refine .inr ⟨names, rfl, ?_, namesOf.unique, ?_⟩
      · rw [namesOf.keys]
        exact (namingOrder_perm keys).map _
      · intro name member
        obtain ⟨entry, isEntry, rfl⟩ := List.mem_map.mp member
        obtain ⟨operation, isOperation, -, nameOf⟩ := namesOf.names entry isEntry
        exact nameOf.pattern.mpr (seedFits_of_named (seeded.named (mem_namingOrder.mp isOperation)))
  · intro others perm
    unfold toolNames
    rw [namingOrder_eq_of_perm keys perm, addToolName_eq_of_perm perm]

/-! ## Two operations of one name -/

/-- The digests of two keys. -/
def petsDigests (text : Text) : Sha256 :=
  if text = "op_list" then ⟨"989ba17474af59d8bd82eb7c30b7b82cc99f8a9d69033ddaa9779c3f5a1dfcfd", by decide⟩
  else ⟨"08d816ef401cec364217d2f8ab1cceaa11009ff1d851d101dfc099cb2389d0ce", by decide⟩

def petsHashing : Hashing :=
  { zeroHashing with ofText := petsDigests }

def searchOperation (key operationId : Text) : CanonicalOperation where
  key
  toolNameSeed := Parsers.toolNameSeed "get" "/pets" (some operationId)
  method := .get
  pathTemplate := "/pets"
  serverRef := some "main"
  serverCandidates := ["main"]
  provenance := ⟨⟨"v1", "#/paths/~1pets/get"⟩, []⟩

/-- Two identifiers share a seed, and the digests tell them apart. -/
theorem listed_pets_named :
    toolNames petsHashing [searchOperation "op_list" "listPets", searchOperation "op_find" "list-pets"] =
      .ok [("op_find", "list_pets_08d816ef"), ("op_list", "list_pets_989ba174")] ∧
    toolNames petsHashing [searchOperation "op_find" "list-pets", searchOperation "op_list" "listPets"] =
      toolNames petsHashing [searchOperation "op_list" "listPets", searchOperation "op_find" "list-pets"] := by
  have keys : ([searchOperation "op_list" "listPets", searchOperation "op_find" "list-pets"].map
      CanonicalOperation.key).Nodup := show (["op_list", "op_find"].map String.toList).Nodup by decide
  have seeded : Seeded [searchOperation "op_list" "listPets", searchOperation "op_find" "list-pets"] := by
    intro operation member
    rcases List.mem_cons.mp member with rfl | member
    · exact ⟨"get", "/pets", some "listPets", rfl⟩
    · rw [List.mem_singleton.mp member]
      exact ⟨"get", "/pets", some "list-pets", rfl⟩
  exact ⟨rfl, (@tool_names_stable petsHashing _ keys seeded).2 _ (List.Perm.swap _ _ _)⟩

end Mcplica.Compilers
