import ArgoTwin.Envelopes
/-!
# Bronze reads are authentic

Everything sealed was sealed by a put, under a header that names its object
and its subject. So whatever the bytes at a path are, as long as they are no
forgery, what is read off them is what a put stored there, or they are
refused.
-/

namespace ArgoTwin

open Library

namespace EncryptedFileBronzeVault

/-! ## What a put does -/

theorem path_eq_none {v : Vault} {digest objectId : String} :
    path v digest objectId = .ok none ↔ v.files (digest, objectId) = none := by
  unfold path
  cases v.files (digest, objectId) with
  | none => simp
  | some file => cases file <;> simp

theorem path_eq_some {v : Vault} {digest objectId : String} {envelope : Bytes} :
    path v digest objectId = .ok (some envelope) ↔
      v.files (digest, objectId) = some (.bytes envelope) := by
  unfold path
  cases v.files (digest, objectId) with
  | none => simp
  | some file => cases file <;> simp

variable [P : VaultPrimitives]

section Put

variable {maxObjectBytes : Nat} {keys : KeyProvider} {readings : PutReadings} {args : PutArgs}
  {v v' : Vault}

/-- What the vault is when an object was written into it. -/
def withObject (v : Vault) (args : PutArgs) (message : Sealed) (envelope : Bytes) : Vault where
  files := Function.update v.files (args.digest, args.objectId) (some (.bytes envelope))
  sealed := message :: v.sealed

/-- A put that has read the vault. -/
theorem put_read : put maxObjectBytes keys readings args v =
    (if args.subjectId = "" ∨ args.mediaType = "" then
      fromExcept (violated "subject_id and media_type are required")
    else if maxObjectBytes < args.content.length then
      fromExcept (violated "Bronze object exceeds the configured byte limit")
    else do
      match ← fromExcept (path v args.digest args.objectId) with
      | some _ =>
        fromExcept (compare keys v args
          "deterministic Bronze source identity changed acquisition material")
      | none =>
        let (message, envelope) ← fromExcept (sealObject keys readings args)
        set { v with sealed := message :: v.sealed }
        link keys args envelope : EStateM VaultError Vault (String × String)) v := rfl

variable (maxObjectBytes keys readings args v) in
/-- **What a put comes to**: it is refused, or compared with what is there,
or an object is written. -/
theorem put_eq : put maxObjectBytes keys readings args v =
    if args.subjectId = "" ∨ args.mediaType = "" then
      .error (.raised (.invariantViolation "subject_id and media_type are required")) v
    else if maxObjectBytes < args.content.length then
      .error (.raised (.invariantViolation "Bronze object exceeds the configured byte limit")) v
    else
      match path v args.digest args.objectId with
      | .error e => .error e v
      | .ok (some _) =>
        fromExcept (compare keys v args
          "deterministic Bronze source identity changed acquisition material") v
      | .ok none =>
        match sealObject keys readings args with
        | .error e => .error e v
        | .ok (message, envelope) =>
          .ok (args.objectUri, args.valueHash) (withObject v args message envelope) := by
  rw [put_read]
  split_ifs with hrequired hlimit
  · rfl
  · rfl
  · cases hpath : path v args.digest args.objectId with
    | error e => simp only [bind, EStateM.bind, fromExcept]
    | ok found =>
      cases found with
      | some envelope => simp only [bind, EStateM.bind, fromExcept]
      | none =>
        have hfree := path_eq_none.1 hpath
        cases hsealed : sealObject keys readings args with
        | error e => simp only [bind, EStateM.bind, fromExcept]
        | ok written =>
          obtain ⟨message, envelope⟩ := written
          simp only [bind, EStateM.bind, fromExcept, set, EStateM.set, link, getThe, MonadStateOf.get,
            EStateM.get, hfree, if_true, pure, EStateM.pure, withObject]

/-- What a put seals is sealed from the object it was given. -/
theorem of_sealObject {message : Sealed} {envelope : Bytes}
    (hmetadata : Json.Proper P.reader.nearest (.ofPayload args.metadata))
    (h : sealObject keys readings args = .ok (message, envelope)) :
    ∃ keyId key, keys.activeKey args.subjectId = .ok (keyId, key) ∧
      SealedFrom message (args.record keyId readings.now, args.content) := by
  unfold sealObject at h
  obtain ⟨⟨keyId, key⟩, hkey, h⟩ := bind_eq_ok.1 h
  dsimp only at h
  split_ifs at h with hlength
  · exact (violated_eq_ok.1 h).elim
  obtain ⟨size, hsize, h⟩ := bind_eq_ok.1 h
  obtain ⟨headerSize, hheader, h⟩ := bind_eq_ok.1 h
  obtain ⟨rfl, -⟩ := Prod.mk.inj (Except.ok.inj h)
  have haad := congrArg (fun digest => written (header keyId readings.nonce args.objectId digest))
    args.digest_eq
  exact ⟨keyId, key, hkey,
    { routed := ⟨args.objectId, args.objectUri_eq, haad⟩, proper := hmetadata, hashed := rfl,
      dated := ⟨readings.now, readings.representable, rfl⟩, framed := ⟨size, hsize, rfl⟩ }⟩

variable (maxObjectBytes keys readings args v) in
/-- The object a put stores: none where it is refused, or finds one. -/
def deposited : List (BronzeObject × Bytes) :=
  match put maxObjectBytes keys readings args v, keys.activeKey args.subjectId with
  | .ok _ _, .ok (keyId, _) =>
    if v.files (args.digest, args.objectId) = none then
      [(args.record keyId readings.now, args.content)]
    else []
  | _, _ => []

variable (maxObjectBytes keys readings v) in
/-- **A put leaves the vault as it was, or stores one object** under one
message sealed from it. -/
theorem put_cases (hmetadata : Json.Proper P.reader.nearest (.ofPayload args.metadata)) :
    (finalState (put maxObjectBytes keys readings args) v = v ∧
      deposited maxObjectBytes keys readings args v = []) ∨
    ∃ found message envelope,
      finalState (put maxObjectBytes keys readings args) v = withObject v args message envelope ∧
      deposited maxObjectBytes keys readings args v = [found] ∧ SealedFrom message found := by
  have hput := put_eq maxObjectBytes keys readings args v
  unfold deposited finalState
  split_ifs at hput with hrequired hlimit
  · exact .inl (by simp [hput])
  · exact .inl (by simp [hput])
  · cases hpath : path v args.digest args.objectId with
    | error e => exact .inl (by simp [hput, hpath])
    | ok found =>
      cases found with
      | some envelope =>
        have hthere : v.files (args.digest, args.objectId) ≠ none := fun hfree => by
          rw [path_eq_none.2 hfree] at hpath
          cases hpath
        simp only [hpath] at hput
        cases hcompared : compare keys v args
          "deterministic Bronze source identity changed acquisition material" with
        | error e =>
          rw [hcompared] at hput
          exact .inl (by simp [hput, fromExcept])
        | ok stored =>
          rw [hcompared] at hput
          refine .inl ⟨by simp [hput, fromExcept], ?_⟩
          cases keys.activeKey args.subjectId <;> simp [hput, fromExcept, hthere]
      | none =>
        have hfree := path_eq_none.1 hpath
        cases hsealed : sealObject keys readings args with
        | error e => exact .inl (by simp [hput, hpath, hsealed])
        | ok written =>
          obtain ⟨message, envelope⟩ := written
          obtain ⟨keyId, key, hkey, hfrom⟩ := of_sealObject hmetadata hsealed
          exact .inr ⟨_, message, envelope, by simp [hput, hpath, hsealed],
            by simp [hput, hpath, hsealed, hkey, hfree], hfrom⟩

end Put

/-- A delete that has read the vault. -/
theorem delete_read (v : Vault) (subjectId objectUri : String) : delete subjectId objectUri v = (do
    let (digest, objectId) ← fromExcept (parseUri objectUri)
    if digest ≠ subjectDigest subjectId then
      throw (.notFound "Bronze object does not belong to this subject")
    else
      match ← fromExcept (path v digest objectId) with
      | none => pure false
      | some _ =>
        set { v with files := Function.update v.files (digest, objectId) none }
        pure true : EStateM VaultError Vault Bool) v := rfl

/-- **What a delete comes to.** -/
theorem delete_eq (v : Vault) (subjectId objectUri : String) : delete subjectId objectUri v =
    match parseUri objectUri with
    | .error e => .error e v
    | .ok (digest, objectId) =>
      if digest ≠ subjectDigest subjectId then
        .error (.notFound "Bronze object does not belong to this subject") v
      else
        match path v digest objectId with
        | .error e => .error e v
        | .ok none => .ok false v
        | .ok (some _) =>
          .ok true { v with files := Function.update v.files (digest, objectId) none } := by
  rw [delete_read]
  cases parseUri objectUri with
  | error e => rfl
  | ok parts =>
    obtain ⟨digest, objectId⟩ := parts
    simp only [bind, EStateM.bind, fromExcept]
    split_ifs with hdigest
    · rfl
    · cases path v digest objectId with
      | error e => rfl
      | ok found => cases found <;> rfl

/-- A delete removes a file at most. -/
theorem delete_cases (v : Vault) (subjectId objectUri : String) :
    finalState (delete subjectId objectUri) v = v ∨ ∃ location,
      finalState (delete subjectId objectUri) v =
        { v with files := Function.update v.files location none } := by
  rw [finalState, delete_eq]
  cases parseUri objectUri with
  | error e => exact .inl rfl
  | ok parts =>
    obtain ⟨digest, objectId⟩ := parts
    dsimp only
    split_ifs with hdigest
    · exact .inl rfl
    · cases path v digest objectId with
      | error e => exact .inl rfl
      | ok found =>
        cases found with
        | none => exact .inl rfl
        | some envelope => exact .inr ⟨(digest, objectId), rfl⟩

/-! ## Histories -/

/-- What the vault comes to, and the objects puts have stored in it, each
with its record and its content: calls of any provider and any clock, and
whatever else is done to the files. -/
inductive VaultHistory (maxObjectBytes : Nat) :
    Vault → List (BronzeObject × Bytes) → Prop where
  | empty : VaultHistory maxObjectBytes { files := fun _ => none, sealed := [] } []
  | put {v : Vault} {stored : List (BronzeObject × Bytes)} (keys : KeyProvider)
      (readings : PutReadings) (args : PutArgs)
      (hmetadata : Json.Proper P.reader.nearest (.ofPayload args.metadata))
      (h : VaultHistory maxObjectBytes v stored) :
      VaultHistory maxObjectBytes
        (finalState (EncryptedFileBronzeVault.put maxObjectBytes keys readings args) v)
        (stored ++ deposited maxObjectBytes keys readings args v)
  | delete {v : Vault} {stored : List (BronzeObject × Bytes)} (subjectId objectUri : String)
      (h : VaultHistory maxObjectBytes v stored) :
      VaultHistory maxObjectBytes
        (finalState (EncryptedFileBronzeVault.delete subjectId objectUri) v) stored
  | tamper {v : Vault} {stored : List (BronzeObject × Bytes)} (location : String × String)
      (file : Option VaultFile) (h : VaultHistory maxObjectBytes v stored) :
      VaultHistory maxObjectBytes { v with files := Function.update v.files location file } stored

/-- Everything sealed was sealed from an object that was stored. -/
theorem VaultHistory.sealed_from {maxObjectBytes : Nat} {v : Vault}
    {stored : List (BronzeObject × Bytes)} (h : VaultHistory maxObjectBytes v stored) :
    ∀ message ∈ v.sealed, ∃ found ∈ stored, SealedFrom message found := by
  induction h with
  | empty => simp
  | @put v stored keys readings args hmetadata _ ih =>
    rcases put_cases maxObjectBytes keys readings v hmetadata with
      ⟨hstate, hnone⟩ | ⟨found, message, envelope, hstate, hone, hfrom⟩
    · rw [hstate, hnone, List.append_nil]
      exact ih
    · rw [hstate, hone]
      intro other hother
      rcases List.mem_cons.1 hother with rfl | hother
      · exact ⟨found, by simp, hfrom⟩
      · obtain ⟨before, hbefore, hsealed⟩ := ih other hother
        exact ⟨before, List.mem_append_left _ hbefore, hsealed⟩
  | @delete v stored subjectId objectUri _ ih =>
    rcases delete_cases v subjectId objectUri with hstate | ⟨location, hstate⟩
    · rw [hstate]
      exact ih
    · rw [hstate]
      exact ih
  | tamper _ _ _ ih => exact ih

/-! ## Reads -/

omit P in
theorem closed_tampered {α : Type} {message : String} {e : VaultError}
    (h : (tampered message : Except VaultError α) = .error e) : e.Closed := by
  obtain rfl := Except.error.inj h
  trivial

omit P in
/-- Whatever is raised on the way, one of the two comes out. -/
theorem closed_failClosed {α : Type} {x : Except VaultError α} {e : VaultError}
    (h : failClosed x = .error e) : e.Closed := by
  unfold failClosed at h
  split at h
  · obtain rfl := Except.error.inj h
    trivial
  · exact closed_tampered h
  · exact closed_tampered h
  · cases h

omit P in
theorem of_failClosed {α : Type} {x : Except VaultError α} {a : α} (h : failClosed x = .ok a) :
    x = .ok a := by
  unfold failClosed at h
  split at h
  · cases h
  · exact (tampered_eq_ok.1 h).elim
  · exact (tampered_eq_ok.1 h).elim
  · exact h

/-- A read at a path that the URI names. -/
theorem get_of_parseUri (keys : KeyProvider) {v : Vault}
    {subjectId objectUri digest objectId : String}
    (hpath : parseUri objectUri = .ok (digest, objectId)) : get keys v subjectId objectUri =
    if digest ≠ subjectDigest subjectId then
      .error (.notFound "Bronze object does not belong to this subject")
    else path v digest objectId >>= fun
      | none => .error (.notFound "Bronze object was not found")
      | some envelope =>
        failClosed (authenticate keys subjectId objectUri digest objectId envelope) := by
  rw [get, hpath]
  rfl

/-- The message that the cipher lets through at a place, under the key that
the provider has for it. -/
def letThrough (keys : KeyProvider) (v : Vault) (subjectId digest objectId : String) :
    Option Sealed :=
  match v.files (digest, objectId) with
  | none | some .symlink => none
  | some (.bytes envelope) => do
    let found ← (routed keys subjectId digest objectId envelope).toOption
    let plaintext ← P.decrypt found.key found.nonce found.ciphertext found.aad
    pure ⟨found.key, found.nonce, found.aad, plaintext, found.ciphertext⟩

/-- No forgery stands at a place: what the cipher lets through there was
sealed by a put. -/
def Unforged (keys : KeyProvider) (v : Vault) (subjectId digest objectId : String) : Prop :=
  ∀ message ∈ letThrough keys v subjectId digest objectId, message ∈ v.sealed

instance (keys : KeyProvider) (v : Vault) (subjectId digest objectId : String) :
    Decidable (Unforged keys v subjectId digest objectId) :=
  inferInstanceAs (Decidable (∀ message ∈ letThrough keys v subjectId digest objectId,
    message ∈ v.sealed))

theorem letThrough_eq_some {keys : KeyProvider} {v : Vault} {subjectId digest objectId : String}
    {envelope plaintext : Bytes} {found : Ciphered}
    (hfile : v.files (digest, objectId) = some (.bytes envelope))
    (hrouted : routed keys subjectId digest objectId envelope = .ok found)
    (hplaintext : P.decrypt found.key found.nonce found.ciphertext found.aad = some plaintext) :
    letThrough keys v subjectId digest objectId =
      some ⟨found.key, found.nonce, found.aad, plaintext, found.ciphertext⟩ := by
  unfold letThrough
  rw [hfile]
  show ((routed keys subjectId digest objectId envelope).toOption >>= fun found =>
    P.decrypt found.key found.nonce found.ciphertext found.aad >>= fun plaintext =>
      some (Sealed.mk found.key found.nonce found.aad plaintext found.ciphertext)) = _
  rw [hrouted, Except.toOption, Option.bind_eq_bind, Option.bind_some, hplaintext]
  rfl

/-- **Bronze reads are authentic.** Whatever was put, deleted and written
over, and whatever keys the provider has now, a read at the path of an
object, where no forgery stands, returns a record and content that one put
has stored for this very subject and URI, or it raises `IntegrityError` or
`NotFound`. -/
theorem get_authentic {maxObjectBytes : Nat} {v : Vault} {stored : List (BronzeObject × Bytes)}
    (h : VaultHistory maxObjectBytes v stored) (keys : KeyProvider)
    {subjectId objectUri digest objectId : String}
    (hpath : parseUri objectUri = .ok (digest, objectId))
    (hunforged : Unforged keys v subjectId digest objectId)
    (hsubjects : ∀ object ∈ stored,
      subjectDigest object.1.subjectId = subjectDigest subjectId → object.1.subjectId = subjectId) :
    match get keys v subjectId objectUri with
    | .ok found => found ∈ stored ∧ found.1.subjectId = subjectId ∧ found.1.objectUri = objectUri
    | .error e => e.Closed := by
  rw [get_of_parseUri keys hpath]
  split_ifs with hdigest
  · trivial
  push Not at hdigest
  cases hfound : path v digest objectId with
  | error e =>
    show e.Closed
    unfold path at hfound
    split at hfound
    · exact closed_tampered hfound
    · cases hfound
    · cases hfound
  | ok envelope =>
    cases envelope with
    | none => trivial
    | some envelope =>
      show match failClosed
          (authenticate keys subjectId objectUri digest objectId envelope) with
        | .ok found => _
        | .error e => _
      cases hread : failClosed
          (authenticate keys subjectId objectUri digest objectId envelope) with
      | error e => exact closed_failClosed hread
      | ok found =>
        obtain ⟨ciphered, plaintext, hciphered, hplaintext, hunframed⟩ :=
          of_authenticate (of_failClosed hread)
        obtain ⟨fields, hfields, hobject, hrouted, hkey⟩ := of_routed hciphered
        have hfile : v.files (digest, objectId) = some (.bytes envelope) := path_eq_some.1 hfound
        obtain ⟨object, hobjectStored, hfrom⟩ := h.sealed_from _
          (hunforged _ (letThrough_eq_some hfile hciphered hplaintext))
        obtain ⟨rfl, hsubject, huri⟩ := hfrom.read (uri_of_parseUri hpath) hdigest
          (hsubjects object hobjectStored) hfields hobject hrouted hkey hunframed
        exact ⟨hobjectStored, hsubject, huri⟩

/-- A note of one connector, for runs on fixed inputs. -/
def note (connectorId sourceRecordId text : String) : PutArgs where
  subjectId := "subject-1"
  mediaType := "text/plain"
  content := utf8 text
  metadata :=
    .ofFields [("connector_id", .str connectorId), ("source_record_id", .str sourceRecordId)]

def localKeys : KeyProvider := staticKeys "local" (List.replicate 32 7)

def firstReadings : PutReadings where
  now := 0
  nonce := List.replicate 12 1
  representable := by decide
  length_nonce := rfl

omit P in
theorem proper_note (connectorId sourceRecordId text : String) (nearest : PyFloat → Option PyFloat) :
    Json.Proper nearest (.ofPayload (note connectorId sourceRecordId text).metadata) := by
  rw [note, ← Payload.object_eq]
  refine Json.proper_object fun field hfield => ?_
  simp only [List.mem_cons, List.not_mem_nil, or_false] at hfield
  rcases hfield with rfl | rfl <;> trivial

omit P in
/-- A note is read after the file of another was cut off. -/
theorem get_authentic_note :
    let _ : VaultPrimitives := checksumPrimitives
    let args := note "ehr" "r1" "observed"
    let v : Vault := { files := fun _ => none, sealed := [] }
    let noted := finalState (put 100 localKeys firstReadings args) v
    let spoiled : Vault :=
      { noted with files := Function.update noted.files ("", "other") (some (.bytes [1, 2])) }
    match get localKeys spoiled "subject-1" args.objectUri with
    | .ok found =>
      found ∈ [] ++ deposited 100 localKeys firstReadings args v ∧
        found.1.subjectId = "subject-1" ∧ found.1.objectUri = args.objectUri
    | .error e => e.Closed := by
  intro primitives args v noted spoiled
  have hmetadata : Json.Proper primitives.reader.nearest (.ofPayload args.metadata) :=
    proper_note "ehr" "r1" "observed" primitives.reader.nearest
  have hput : VaultHistory 100 noted ([] ++ deposited 100 localKeys firstReadings args v) :=
    .put localKeys firstReadings args hmetadata .empty
  have hparse : parseUri args.objectUri = .ok (args.digest, args.objectId) := by decide +kernel
  have hsubjects : ∀ object ∈ [] ++ deposited 100 localKeys firstReadings args v,
      subjectDigest object.1.subjectId = subjectDigest "subject-1" →
        object.1.subjectId = "subject-1" := by
    decide +kernel
  have hspoiled : VaultHistory 100 spoiled
      ([] ++ deposited 100 localKeys firstReadings args v) :=
    VaultHistory.tamper ("", "other") (some (.bytes [1, 2])) hput
  have hunforged : Unforged localKeys spoiled "subject-1" args.digest args.objectId := by
    decide +kernel
  exact get_authentic hspoiled localKeys hparse hunforged hsubjects

end EncryptedFileBronzeVault

end ArgoTwin
