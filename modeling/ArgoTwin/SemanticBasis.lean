import ArgoTwin.JsonText
import ArgoTwin.Types
import ArgoTwin.Library.Effects
/-!
# Semantic bases

A semantic basis names what an interpretation rests on: a snapshot of one
subject's representation, the registries and policies it is read under, and
whatever other references matter, in order and each once. Its identifier is
a digest of all that, and of nothing else.
-/

namespace ArgoTwin

open Library

/-- Stable identity of the represented person. -/
@[ext]
structure SubjectRef where
  subjectId : String
  required : subjectId ≠ ""

instance : DecidableEq SubjectRef := fun _ _ => decidable_of_iff _ SubjectRef.ext_iff.symm

/-- Identity of one canonical representation state for one subject. -/
structure RepresentationSnapshotRef where
  subjectRef : SubjectRef
  snapshotId : String
  canonicalSequence : Int
  integrityRef : String
  required : snapshotId ≠ "" ∧ integrityRef ≠ ""
  notNegative : 0 ≤ canonicalSequence
  deriving DecidableEq

structure SemanticBasisRef where
  semanticBasisId : String
  subjectRef : SubjectRef
  representationSnapshotRef : RepresentationSnapshotRef
  schemaRegistrySnapshotRef : String
  constructRegistrySnapshotRef : String
  admissionPolicyRef : String
  epistemicPolicyRef : String
  semanticConstraintPolicyRef : String
  otherInterpretationCriticalRefs : List String
  integrityRef : String
  sealedAt : DateTime
  deriving DecidableEq

/-- `tuple(sorted(refs))`. -/
def canonicalRefs (refs : List String) : List String := refs.insertionSort fun a b => a ≤ b

/-- `_require`. -/
def requireRef (value name : String) : Except PyError Unit :=
  if value = "" then .error (.valueError (name ++ " is required")) else .ok ()

/-- `raise ContractViolation(message)` where the condition holds. -/
def violationIf (condition : Prop) [Decidable condition] (message : String) : Except PyError Unit :=
  if condition then .error (.valueError message) else .ok ()

namespace SemanticBasisRef

/-- `__post_init__`. -/
def postInit (b : SemanticBasisRef) : Except PyError Unit := do
  requireRef b.semanticBasisId "semantic_basis_id"
  requireRef b.schemaRegistrySnapshotRef "schema_registry_snapshot_ref"
  requireRef b.constructRegistrySnapshotRef "construct_registry_snapshot_ref"
  requireRef b.admissionPolicyRef "admission_policy_ref"
  requireRef b.epistemicPolicyRef "epistemic_policy_ref"
  requireRef b.semanticConstraintPolicyRef "semantic_constraint_policy_ref"
  requireRef b.integrityRef "integrity_ref"
  violationIf (b.representationSnapshotRef.subjectRef ≠ b.subjectRef)
    "semantic basis subject must match representation snapshot subject"
  violationIf (¬ (canonicalRefs b.otherInterpretationCriticalRefs).Nodup)
    "other_interpretation_critical_refs must be unique"
  violationIf (b.otherInterpretationCriticalRefs ≠ canonicalRefs b.otherInterpretationCriticalRefs)
    "other_interpretation_critical_refs must use canonical sorted order"
  violationIf (b.sealedAt.naive = true) "sealed_at must be timezone-aware"

/-- The constructor: the fields, once they pass its checks. -/
def construct (b : SemanticBasisRef) : Except PyError SemanticBasisRef := do
  postInit b
  pure b

end SemanticBasisRef

/-- The arguments of `seal`. -/
structure SealArgs where
  subjectRef : SubjectRef
  representationSnapshotRef : RepresentationSnapshotRef
  schemaRegistrySnapshotRef : String
  constructRegistrySnapshotRef : String
  admissionPolicyRef : String
  epistemicPolicyRef : String
  semanticConstraintPolicyRef : String
  otherInterpretationCriticalRefs : List String := []
  sealedAt : Option DateTime := none

namespace SealArgs

/-- What the identifier of a basis is a digest of. -/
def material (args : SealArgs) : Json :=
  Json.object
    [("subject_id", .str args.subjectRef.subjectId),
     ("representation_snapshot_id", .str args.representationSnapshotRef.snapshotId),
     ("representation_sequence", .int args.representationSnapshotRef.canonicalSequence),
     ("representation_integrity", .str args.representationSnapshotRef.integrityRef),
     ("schema_registry_snapshot_ref", .str args.schemaRegistrySnapshotRef),
     ("construct_registry_snapshot_ref", .str args.constructRegistrySnapshotRef),
     ("admission_policy_ref", .str args.admissionPolicyRef),
     ("epistemic_policy_ref", .str args.epistemicPolicyRef),
     ("semantic_constraint_policy_ref", .str args.semanticConstraintPolicyRef),
     ("other_interpretation_critical_refs",
        .arr ((canonicalRefs args.otherInterpretationCriticalRefs).map .str))]

end SealArgs

/-- `_stable_id`. -/
def stableRef [Digest] (space : String) (value : Json) : String :=
  space ++ ":sha256:" ++ Digest.sha256 (canonicalJson value)

namespace SemanticBasisRef

variable [Digest]

/-- The basis `seal` hands its constructor. -/
def draft (args : SealArgs) (now : Instant) : SemanticBasisRef where
  semanticBasisId := stableRef "semantic-basis" args.material
  subjectRef := args.subjectRef
  representationSnapshotRef := args.representationSnapshotRef
  schemaRegistrySnapshotRef := args.schemaRegistrySnapshotRef
  constructRegistrySnapshotRef := args.constructRegistrySnapshotRef
  admissionPolicyRef := args.admissionPolicyRef
  epistemicPolicyRef := args.epistemicPolicyRef
  semanticConstraintPolicyRef := args.semanticConstraintPolicyRef
  otherInterpretationCriticalRefs := canonicalRefs args.otherInterpretationCriticalRefs
  integrityRef := stableRef "semantic-basis-integrity" args.material
  sealedAt := args.sealedAt.getD (DateTime.utc now)

/-- `seal`, when the clock reads `now`. -/
def sealBasis (args : SealArgs) (now : Instant) : Except PyError SemanticBasisRef := do
  violationIf (args.representationSnapshotRef.subjectRef ≠ args.subjectRef)
    "semantic basis subject must match representation snapshot subject"
  violationIf (¬ args.otherInterpretationCriticalRefs.Nodup)
    "other_interpretation_critical_refs must be unique"
  construct (draft args now)

end SemanticBasisRef

/-! ## What is sorted -/

section Sorting

variable {refs refs' : List String}

theorem perm_canonicalRefs : (canonicalRefs refs).Perm refs := List.perm_insertionSort _ _

/-- However references are ordered, they are sorted alike. -/
theorem canonicalRefs_of_perm (h : refs.Perm refs') : canonicalRefs refs = canonicalRefs refs' := by
  refine List.Perm.eq_of_pairwise' (List.pairwise_insertionSort _ _)
    (List.pairwise_insertionSort _ _) ?_
  exact (perm_canonicalRefs.trans h).trans perm_canonicalRefs.symm

theorem canonicalRefs_idem : canonicalRefs (canonicalRefs refs) = canonicalRefs refs :=
  canonicalRefs_of_perm perm_canonicalRefs

theorem nodup_canonicalRefs : (canonicalRefs refs).Nodup ↔ refs.Nodup :=
  perm_canonicalRefs.nodup_iff

/-- References given once each are sorted alike where they are the same set. -/
theorem canonicalRefs_eq_iff (hrefs : refs.Nodup) (hrefs' : refs'.Nodup) :
    canonicalRefs refs = canonicalRefs refs' ↔ ∀ ref, ref ∈ refs ↔ ref ∈ refs' := by
  constructor
  · intro h ref
    rw [← perm_canonicalRefs.mem_iff, h, perm_canonicalRefs.mem_iff]
  · intro h
    exact canonicalRefs_of_perm ((List.perm_ext_iff_of_nodup hrefs hrefs').2 h)

end Sorting

/-! ## What is accepted -/

@[simp] theorem requireRef_eq_ok {value name : String} :
    requireRef value name = .ok () ↔ value ≠ "" := by
  unfold requireRef
  split_ifs with h <;> simp [h]

@[simp] theorem violationIf_eq_ok {condition : Prop} [Decidable condition] {message : String} :
    violationIf condition message = .ok () ↔ ¬ condition := by
  unfold violationIf
  split_ifs with h <;> simp [h]

namespace SealArgs

/-- What `seal` asks of its arguments: the snapshot is the subject's, no
reference is given twice, the named ones are given, and a time of sealing
has an offset. -/
structure Acceptable (args : SealArgs) : Prop where
  subject : args.representationSnapshotRef.subjectRef = args.subjectRef
  unique : args.otherInterpretationCriticalRefs.Nodup
  schemaRegistry : args.schemaRegistrySnapshotRef ≠ ""
  constructRegistry : args.constructRegistrySnapshotRef ≠ ""
  admissionPolicy : args.admissionPolicyRef ≠ ""
  epistemicPolicy : args.epistemicPolicyRef ≠ ""
  semanticConstraintPolicy : args.semanticConstraintPolicyRef ≠ ""
  aware : ∀ sealedAt, args.sealedAt = some sealedAt → sealedAt.naive = false

/-- The same subject, snapshot, registries and policies, and the same set of
other references. -/
structure SameContent (args args' : SealArgs) : Prop where
  subject : args.subjectRef = args'.subjectRef
  snapshotId : args.representationSnapshotRef.snapshotId =
    args'.representationSnapshotRef.snapshotId
  sequence : args.representationSnapshotRef.canonicalSequence =
    args'.representationSnapshotRef.canonicalSequence
  integrity : args.representationSnapshotRef.integrityRef =
    args'.representationSnapshotRef.integrityRef
  schemaRegistry : args.schemaRegistrySnapshotRef = args'.schemaRegistrySnapshotRef
  constructRegistry : args.constructRegistrySnapshotRef = args'.constructRegistrySnapshotRef
  admissionPolicy : args.admissionPolicyRef = args'.admissionPolicyRef
  epistemicPolicy : args.epistemicPolicyRef = args'.epistemicPolicyRef
  semanticConstraintPolicy : args.semanticConstraintPolicyRef = args'.semanticConstraintPolicyRef
  others : ∀ ref, ref ∈ args.otherInterpretationCriticalRefs ↔
    ref ∈ args'.otherInterpretationCriticalRefs

end SealArgs

section Sealing

variable [Digest] {args args' : SealArgs} {now now' : Instant} {b b' : SemanticBasisRef}

theorem stableRef_ne_empty {space : String} {value : Json} : stableRef space value ≠ "" := by
  intro h
  have hlength := congrArg String.length h
  have hsha : ":sha256:".length = 8 := by decide
  simp only [stableRef, String.length_append, hsha, String.length_empty] at hlength
  omega

omit [Digest] in
/-- **The constructor's checks**, passed. -/
theorem postInit_eq_ok : b.postInit = .ok () ↔
    b.semanticBasisId ≠ "" ∧ b.schemaRegistrySnapshotRef ≠ "" ∧
      b.constructRegistrySnapshotRef ≠ "" ∧ b.admissionPolicyRef ≠ "" ∧
      b.epistemicPolicyRef ≠ "" ∧ b.semanticConstraintPolicyRef ≠ "" ∧ b.integrityRef ≠ "" ∧
      b.representationSnapshotRef.subjectRef = b.subjectRef ∧
      b.otherInterpretationCriticalRefs.Nodup ∧
      b.otherInterpretationCriticalRefs = canonicalRefs b.otherInterpretationCriticalRefs ∧
      b.sealedAt.naive = false := by
  have hunit : ∀ {x : Except PyError Unit} {P : Unit → Prop},
      (∃ u, x = .ok u ∧ P u) ↔ x = .ok () ∧ P () :=
    ⟨fun ⟨_, h⟩ => h, fun h => ⟨(), h⟩⟩
  simp only [SemanticBasisRef.postInit, bind_eq_ok, hunit, requireRef_eq_ok, violationIf_eq_ok,
    nodup_canonicalRefs, not_not, ne_eq, Bool.not_eq_true]

/-- **What `seal` accepts**: its arguments' own conditions, no others. What
it computes never trips the constructor. -/
theorem sealBasis_eq_ok : SemanticBasisRef.sealBasis args now = .ok b ↔
    args.Acceptable ∧ b = SemanticBasisRef.draft args now := by
  have haware : (args.sealedAt.getD (DateTime.utc now)).naive = false ↔
      ∀ sealedAt, args.sealedAt = some sealedAt → sealedAt.naive = false := by
    cases args.sealedAt <;> simp
  have hdraft : (SemanticBasisRef.draft args now).postInit = .ok () ↔
      args.schemaRegistrySnapshotRef ≠ "" ∧ args.constructRegistrySnapshotRef ≠ "" ∧
        args.admissionPolicyRef ≠ "" ∧ args.epistemicPolicyRef ≠ "" ∧
        args.semanticConstraintPolicyRef ≠ "" ∧
        args.representationSnapshotRef.subjectRef = args.subjectRef ∧
        args.otherInterpretationCriticalRefs.Nodup ∧
        ∀ sealedAt, args.sealedAt = some sealedAt → sealedAt.naive = false := by
    simp only [postInit_eq_ok, SemanticBasisRef.draft, haware, nodup_canonicalRefs,
      canonicalRefs_idem, true_and, ne_eq, stableRef_ne_empty, not_false_eq_true]
  simp only [SemanticBasisRef.sealBasis, SemanticBasisRef.construct, bind_eq_ok]
  constructor
  · rintro ⟨_, hsubject, _, hunique, _, hchecked, hmade⟩
    obtain ⟨hschema, hconstruct, hadmission, hepistemic, hconstraint, -, -, hsealed⟩ :=
      hdraft.1 hchecked
    cases hmade
    exact ⟨⟨not_not.1 (violationIf_eq_ok.1 hsubject), not_not.1 (violationIf_eq_ok.1 hunique),
      hschema, hconstruct, hadmission, hepistemic, hconstraint, hsealed⟩, rfl⟩
  · rintro ⟨h, rfl⟩
    refine ⟨(), violationIf_eq_ok.2 (not_not.2 h.subject), (),
      violationIf_eq_ok.2 (not_not.2 h.unique), (), hdraft.2 ?_, rfl⟩
    exact ⟨h.schemaRegistry, h.constructRegistry, h.admissionPolicy, h.epistemicPolicy,
      h.semanticConstraintPolicy, h.subject, h.unique, h.aware⟩

/-! ## What a digest tells apart -/

omit [Digest] in
theorem proper_material : Json.Proper (fun _ => none) args.material := by
  refine Json.proper_object fun field hfield => ?_
  simp only [List.mem_cons, List.not_mem_nil, or_false] at hfield
  have hrefs : ∀ refs : List String, Json.ProperItems (fun _ => none) (refs.map .str) := by
    intro refs
    rw [Json.properItems_iff, List.forall_mem_map]
    exact fun _ _ => trivial
  rcases hfield with rfl | rfl | rfl | rfl | rfl | rfl | rfl | rfl | rfl | rfl
  all_goals first | trivial | exact hrefs _

omit [Digest] in
/-- **The material is the content.** -/
theorem material_eq_iff (hargs : args.otherInterpretationCriticalRefs.Nodup)
    (hargs' : args'.otherInterpretationCriticalRefs.Nodup) :
    args.material = args'.material ↔ args.SameContent args' := by
  constructor
  · intro h
    have hfield : ∀ name, args.material.get? name = args'.material.get? name := fun name => by
      rw [h]
    simp only [SealArgs.material, Payload.get?_object, List.reverse_cons, List.reverse_nil,
      List.nil_append, List.cons_append] at hfield
    have hsubject := hfield "subject_id"
    have hsnapshot := hfield "representation_snapshot_id"
    have hsequence := hfield "representation_sequence"
    have hintegrity := hfield "representation_integrity"
    have hschema := hfield "schema_registry_snapshot_ref"
    have hconstruct := hfield "construct_registry_snapshot_ref"
    have hadmission := hfield "admission_policy_ref"
    have hepistemic := hfield "epistemic_policy_ref"
    have hconstraint := hfield "semantic_constraint_policy_ref"
    have hothers := hfield "other_interpretation_critical_refs"
    simp [List.lookup_cons] at hsubject hsnapshot hsequence hintegrity hschema
    simp [List.lookup_cons] at hconstruct hadmission hepistemic hconstraint hothers
    have hsorted : canonicalRefs args.otherInterpretationCriticalRefs =
        canonicalRefs args'.otherInterpretationCriticalRefs :=
      List.map_injective_iff.2 (fun _ _ heq => Json.str.inj heq) hothers
    exact ⟨SubjectRef.ext hsubject, hsnapshot, hsequence, hintegrity, hschema, hconstruct,
      hadmission, hepistemic, hconstraint, (canonicalRefs_eq_iff hargs hargs').1 hsorted⟩
  · intro h
    have hrefs := (canonicalRefs_eq_iff hargs hargs').2 h.others
    rw [SealArgs.material, SealArgs.material, h.subject, h.snapshotId, h.sequence, h.integrity,
      h.schemaRegistry, h.constructRegistry, h.admissionPolicy, h.epistemicPolicy,
      h.semanticConstraintPolicy, hrefs]

/-- A digest of a material tells it from others. -/
theorem stableRef_inj (hinj : Function.Injective Digest.sha256) {space : String} :
    stableRef space args.material = stableRef space args'.material ↔
      args.material = args'.material := by
  constructor
  · intro h
    have hdigest := hinj ((String.append_right_inj _).1 h)
    exact Json.canonicalJson_inj proper_material proper_material hdigest
  · intro h
    rw [h]

/-- **A semantic basis is exactly its content.** Two that were sealed have
one identifier, or one integrity reference, exactly where they agree on
subject, snapshot, registries, policies and the set of other references;
in whatever order these are given the basis is the same up to its time.
`seal` refuses nothing but by its arguments' own conditions, and what it
makes its constructor takes again. -/
theorem semanticBasis_exact (hinj : Function.Injective Digest.sha256) :
    (∀ args args' now now' b b', SemanticBasisRef.sealBasis args now = .ok b →
      SemanticBasisRef.sealBasis args' now' = .ok b' →
        (b.semanticBasisId = b'.semanticBasisId ↔ args.SameContent args') ∧
        (b.integrityRef = b'.integrityRef ↔ args.SameContent args')) ∧
    (∀ args now now' b refs sealedAt, SemanticBasisRef.sealBasis args now = .ok b →
      refs.Perm args.otherInterpretationCriticalRefs → (∀ t, sealedAt = some t → t.naive = false) →
        SemanticBasisRef.sealBasis { args with
          otherInterpretationCriticalRefs := refs, sealedAt := sealedAt } now' =
          .ok { b with sealedAt := sealedAt.getD (DateTime.utc now') }) ∧
    (∀ args now, (∃ b, SemanticBasisRef.sealBasis args now = .ok b) ↔ args.Acceptable) ∧
    ∀ args now b, SemanticBasisRef.sealBasis args now = .ok b → b.construct = .ok b := by
  refine ⟨fun args args' now now' b b' h h' => ?_,
    fun args now now' b refs sealedAt h hperm ht => ?_, fun args now => ?_, fun args now b h => ?_⟩
  · obtain ⟨haccepted, rfl⟩ := sealBasis_eq_ok.1 h
    obtain ⟨haccepted', rfl⟩ := sealBasis_eq_ok.1 h'
    have hcontent := material_eq_iff haccepted.unique haccepted'.unique
    exact ⟨(stableRef_inj hinj).trans hcontent, (stableRef_inj hinj).trans hcontent⟩
  · obtain ⟨haccepted, rfl⟩ := sealBasis_eq_ok.1 h
    refine sealBasis_eq_ok.2 ⟨{ haccepted with
      unique := hperm.nodup_iff.2 haccepted.unique, aware := ht }, ?_⟩
    have hsorted := canonicalRefs_of_perm hperm
    have hmaterial : SealArgs.material { args with
        otherInterpretationCriticalRefs := refs, sealedAt := sealedAt } = args.material := by
      rw [SealArgs.material, SealArgs.material]
      dsimp only
      rw [hsorted]
    rw [SemanticBasisRef.draft, SemanticBasisRef.draft, hmaterial]
    dsimp only
    rw [hsorted]
  · constructor
    · rintro ⟨b, h⟩
      exact (sealBasis_eq_ok.1 h).1
    · exact fun haccepted => ⟨_, sealBasis_eq_ok.2 ⟨haccepted, rfl⟩⟩
  · simp only [SemanticBasisRef.sealBasis, bind_eq_ok] at h
    obtain ⟨_, -, _, -, hmade⟩ := h
    have hsame : SemanticBasisRef.draft args now = b := by
      simp only [SemanticBasisRef.construct, bind_eq_ok] at hmade
      obtain ⟨_, -, hmade⟩ := hmade
      exact Except.ok.inj hmade
    rw [hsame] at hmade
    exact hmade

/-- A reading of the snapshot `representation-17` under these references. -/
def readingOf (refs : List String) : SealArgs where
  subjectRef := ⟨"subject-1", by decide⟩
  representationSnapshotRef := ⟨⟨"subject-1", by decide⟩, "representation-17", 17, "integrity-17",
    by decide, by decide⟩
  schemaRegistrySnapshotRef := "schemas"
  constructRegistrySnapshotRef := "constructs"
  admissionPolicyRef := "admission"
  epistemicPolicyRef := "epistemic"
  semanticConstraintPolicyRef := "constraints"
  otherInterpretationCriticalRefs := refs

omit [Digest] in
theorem acceptable_readingOf {refs : List String} (hrefs : refs.Nodup) :
    (readingOf refs).Acceptable :=
  ⟨rfl, hrefs, by simp [readingOf], by simp [readingOf], by simp [readingOf], by simp [readingOf],
    by simp [readingOf], nofun⟩

omit [Digest] in
/-- References in two orders seal to one basis, another reference to
another. -/
theorem semanticBasis_exact_permuted :
    let _ : Digest := ⟨fun text => text, fun text => text⟩
    (SemanticBasisRef.draft (readingOf ["ref-b", "ref-a"]) 0).semanticBasisId =
        (SemanticBasisRef.draft (readingOf ["ref-a", "ref-b"]) 1).semanticBasisId ∧
      (SemanticBasisRef.draft (readingOf ["ref-b", "ref-a"]) 0).semanticBasisId ≠
        (SemanticBasisRef.draft (readingOf ["ref-c"]) 0).semanticBasisId := by
  intro digest
  have hinj : Function.Injective Digest.sha256 := fun _ _ h => h
  have hsealed : ∀ (refs : List String) (now : Instant), refs.Nodup →
      SemanticBasisRef.sealBasis (readingOf refs) now =
        .ok (SemanticBasisRef.draft (readingOf refs) now) := fun refs now hrefs =>
    sealBasis_eq_ok.2 ⟨acceptable_readingOf hrefs, rfl⟩
  have hexact := fun refs refs' now now' (hrefs : refs.Nodup) (hrefs' : refs'.Nodup) =>
    ((semanticBasis_exact hinj).1 _ _ now now' _ _ (hsealed refs now hrefs)
      (hsealed refs' now' hrefs')).1
  constructor
  · refine (hexact _ _ 0 1 (by decide) (by decide)).2 ?_
    exact ⟨rfl, rfl, rfl, rfl, rfl, rfl, rfl, rfl, rfl, fun ref => by simp [readingOf, or_comm]⟩
  · intro hsame
    have hcontent := (hexact ["ref-b", "ref-a"] ["ref-c"] 0 0 (by decide) (by decide)).1 hsame
    have hmem := (hcontent.others "ref-c").2 (List.mem_singleton_self _)
    simp [readingOf] at hmem

end Sealing

end ArgoTwin
