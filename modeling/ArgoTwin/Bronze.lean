import ArgoTwin.Documents
import ArgoTwin.Library.Base64
import ArgoTwin.Library.Effects
import ArgoTwin.State
import ArgoTwin.TimeText
/-!
# The Bronze vault

`EncryptedFileBronzeVault` keeps source objects as files, each a sealed
envelope: a magic, a clear header that names the key, the nonce and the
object, and a ciphertext of the object's metadata and content that the
header is bound to. What an object is called follows from its source.
-/

namespace ArgoTwin

open Library

/-- What the vault rests on: SHA-256 and version-5 UUIDs of URLs, as texts;
the texts `uuid.UUID` reads; and AES-GCM under a key and a nonce, of a
message or a ciphertext and associated data. Deciphering comes to nothing
where it raises `InvalidTag`; nothing is assumed of it. -/
class VaultPrimitives extends JsonDecoder where
  sha256 : Bytes → String
  uuid5 : String → String
  isUuid : String → Bool
  encrypt : Bytes → Bytes → Bytes → Bytes → Bytes
  decrypt : Bytes → Bytes → Bytes → Bytes → Option Bytes

/-- The low digits of a number in base sixteen, the lowest first. -/
def hexText (width n : Nat) : String :=
  String.ofList ((List.range width).map fun i => Nat.digitChar (n / 16 ^ i % 16))

/-- A checksum of sixteen bytes. -/
def checksumTag (key nonce plaintext aad : Bytes) : Bytes :=
  toBytes 16 ((key ++ nonce ++ plaintext ++ aad).foldl
    (fun n byte => (n * 257 + byte.toNat) % 2305843009213693951) 7)

/-- Primitives for runs on fixed inputs: checksums in the place of digests
and tags, and the message turned round in the place of a cipher. -/
@[reducible] def checksumPrimitives : VaultPrimitives where
  sha256 data := hexText 64 (data.foldl (fun n byte => (n * 257 + byte.toNat) % 16 ^ 64) 7)
  uuid5 name := hexText 32 ((utf8 name).foldl (fun n byte => (n * 257 + byte.toNat) % 16 ^ 32) 7)
  isUuid text := text.length = 32 ∧ text.toList.all fun c => "0123456789abcdef".toList.contains c
  encrypt key nonce plaintext aad := plaintext.reverse ++ checksumTag key nonce plaintext aad
  decrypt key nonce ciphertext aad :=
    let plaintext := (ciphertext.take (ciphertext.length - 16)).reverse
    if ciphertext.drop (ciphertext.length - 16) = checksumTag key nonce plaintext aad then
      some plaintext
    else none
  reader := { nearest := some }
  foreign _ := .error (.valueError "not UTF-8")

/-- What the vault raises: `NotFound`, or one of the other exceptions. -/
inductive VaultError where
  | notFound (message : String)
  | raised (error : PyError)
  deriving DecidableEq

/-- The two ways in which a read fails closed. -/
def VaultError.Closed : VaultError → Prop
  | .notFound _ | .raised (.integrityError _) => True
  | .raised _ => False

/-- `KeyProvider`, as it answers at one time. -/
structure KeyProvider where
  activeKey : String → Except VaultError (String × Bytes)
  keyForId : String → String → Except VaultError Bytes

/-- `StaticKeyProvider`: one key for every subject. -/
def staticKeys (keyId : String) (key : Bytes) : KeyProvider where
  activeKey subjectId :=
    if subjectId = "" then .error (.raised (.valueError "subject_id is required"))
    else .ok (keyId, key)
  keyForId subjectId asked :=
    if subjectId = "" ∨ asked ≠ keyId then .error (.raised (.keyError asked)) else .ok key

/-- Metadata returned after authenticated Bronze object decryption. -/
structure BronzeObject where
  objectUri : String
  subjectId : String
  mediaType : String
  contentHash : String
  metadata : Payload
  keyId : String
  createdAt : DateTime
  deriving DecidableEq

/-- What stands at a path. -/
inductive VaultFile where
  | bytes (envelope : Bytes)
  | symlink
  deriving DecidableEq

/-- The files, by subject digest and object identifier, and every message
that was sealed into an envelope. -/
structure Vault where
  files : String × String → Option VaultFile
  sealed : List Sealed

/-- What one put reads off the clock and the random source. -/
structure PutReadings where
  now : Instant
  nonce : Bytes
  representable : DateTime.Representable now
  length_nonce : nonce.length = 12

namespace EncryptedFileBronzeVault

/-- `raise IntegrityError(message)`. -/
def tampered {α : Type} (message : String) : Except VaultError α :=
  .error (.raised (.integrityError message))

/-- `raise InvariantViolation(message)`. -/
def violated {α : Type} (message : String) : Except VaultError α :=
  .error (.raised (.invariantViolation message))

@[simp] theorem tampered_eq_ok {α : Type} {message : String} {a : α} :
    tampered message = .ok a ↔ False := by
  simp [tampered]

@[simp] theorem violated_eq_ok {α : Type} {message : String} {a : α} :
    violated message = .ok a ↔ False := by
  simp [violated]

def magic : Bytes := utf8 "ARGODTBRONZE1" ++ [0]

variable [P : VaultPrimitives]

/-- `_subject_digest`. -/
def subjectDigest (subjectId : String) : String := P.sha256 (utf8 subjectId)

/-- `_content_hash`. -/
def contentHash (content : Bytes) : String := "sha256:" ++ P.sha256 content

/-- What tells the sources of a subject's objects apart. -/
def sourceIdentity (mediaType contentHash : String) (metadata : Payload) : String :=
  let connectorId := metadata.strD "connector_id" ""
  let sourceRecordId := metadata.strD "source_record_id" ""
  if connectorId ≠ "" ∧ sourceRecordId ≠ "" then "source:" ++ connectorId ++ ":" ++ sourceRecordId
  else "content:" ++ mediaType ++ ":" ++ contentHash

/-- `_deterministic_object_id`. -/
def deterministicObjectId (subjectId mediaType contentHash : String) (metadata : Payload) :
    String :=
  P.uuid5 ("argo-dt:" ++ subjectId ++ ":" ++ sourceIdentity mediaType contentHash metadata)

/-- `_uri`. -/
def uri (subjectDigest objectId : String) : String :=
  "bronze://" ++ subjectDigest ++ "/" ++ objectId

/-- `_parse_uri`. -/
def parseUri (objectUri : String) : Except VaultError (String × String) :=
  let start := "bronze://".toList
  if start.isPrefixOf objectUri.toList then
    match (objectUri.toList.drop start.length).splitOn '/' with
    | [digest, objectId] =>
      if digest.length ≠ 64 then violated "invalid Bronze object URI"
      else if digest.any fun c => !"0123456789abcdef".toList.contains c then
        violated "invalid Bronze subject digest"
      else if P.isUuid (String.ofList objectId) then
        .ok (String.ofList digest, String.ofList objectId)
      else violated "invalid Bronze object identifier"
    | _ => violated "invalid Bronze object URI"
  else violated "invalid Bronze object URI"

/-- `_path`, of a path inside its directory: what is found there. -/
def path (v : Vault) (digest objectId : String) : Except VaultError (Option Bytes) :=
  match v.files (digest, objectId) with
  | some .symlink => tampered "Bronze object cannot be a symbolic link"
  | some (.bytes envelope) => .ok (some envelope)
  | none => .ok none

/-! ## Envelopes -/

/-- `json.loads(data)`, of which `get` is asked: only a dictionary has
it. -/
def readDict (data : Bytes) : Except VaultError Payload :=
  match readJson data with
  | .error e => .error (.raised e)
  | .ok (.obj fields) => .ok (.ofFields fields)
  | .ok _ => .error (.raised (.attributeError "get"))

/-- `str(value[key])`. -/
def text (value : Payload) (key : String) : Except VaultError String :=
  match value[key]? with
  | none => .error (.raised (.keyError key))
  | some found => .ok found.pyStr

/-- `base64.b64decode(value, validate=True)`. -/
def decodeNonce (value : String) : Except VaultError Bytes :=
  match Alphabet.standard.decode value.toList with
  | none => .error (.raised (.valueError "Only base64 data is allowed"))
  | some nonce => .ok nonce

/-- `self._aesgcm(key).decrypt(nonce, ciphertext, aad)`. -/
def decrypt (key nonce ciphertext aad : Bytes) : Except VaultError Bytes :=
  if key.length ≠ 16 ∧ key.length ≠ 24 ∧ key.length ≠ 32 then
    .error (.raised (.valueError "AESGCM key must be 128, 192, or 256 bits."))
  else
    match P.decrypt key nonce ciphertext aad with
    | none => .error (.raised (.valueError "InvalidTag"))
    | some plaintext => .ok plaintext

/-- `len(data).to_bytes(width, "big")`. -/
def sized (width : Nat) (data : Bytes) : Except VaultError Bytes :=
  if data.length < 256 ^ width then .ok (toBytes width data.length)
  else .error (.raised (.overflowError "int too big to convert"))

/-- The clear header of an envelope. -/
def header (keyId : String) (nonce : Bytes) (objectId digest : String) : Payload :=
  .ofFields
    [("version", .str "argo.dt.bronze/v1"), ("key_id", .str keyId),
      ("nonce", .str (String.ofList (Alphabet.standard.encode nonce))),
      ("object_id", .str objectId), ("subject_digest", .str digest)]

/-- The metadata that is sealed in with the content. -/
def sealedMetadata (record : BronzeObject) : Payload :=
  .ofFields
    [("media_type", .str record.mediaType), ("content_hash", .str record.contentHash),
      ("metadata", .ofPayload record.metadata), ("created_at", .str record.createdAt.isoformat)]

/-- What is under the header: the record and the content. -/
def unframed (subjectId objectUri keyId : String) (plaintext : Bytes) :
    Except VaultError (BronzeObject × Bytes) := do
  let metadataLength := ofBytes (plaintext.take 8)
  let metadataEnd := 8 + metadataLength
  if metadataLength < 2 ∨ plaintext.length < metadataEnd then
    tampered "Bronze encrypted metadata length is invalid"
  else
    let metadata ← readDict ((plaintext.drop 8).take metadataLength)
    let content := plaintext.drop metadataEnd
    let valueHash := contentHash content
    if metadata["content_hash"]? ≠ some (.str valueHash) then
      tampered "Bronze plaintext content hash mismatch"
    else
      let mediaType ← text metadata "media_type"
      match metadata["metadata"]? with
      | none => .error (.raised (.keyError "metadata"))
      | some found =>
        let kept ← (TwinState.pyDict found).mapError .raised
        let createdAt ← text metadata "created_at"
        let createdAt ← (parseTime createdAt).mapError .raised
        pure
          ({ objectUri := objectUri, subjectId := subjectId, mediaType := mediaType,
             contentHash := valueHash, metadata := kept, keyId := keyId,
             createdAt := createdAt }, content)

/-- What is to be deciphered of an envelope, and under what. -/
structure Ciphered where
  keyId : String
  key : Bytes
  nonce : Bytes
  aad : Bytes
  ciphertext : Bytes

/-- The envelope at a path taken apart, with the key its header names. -/
def routed (keys : KeyProvider) (subjectId digest objectId : String) (envelope : Bytes) :
    Except VaultError Ciphered := do
  let offset := magic.length
  let headerLength := ofBytes ((envelope.drop offset).take 4)
  let headerBytes := (envelope.drop (offset + 4)).take headerLength
  if ¬ magic.isPrefixOf envelope then tampered "Bronze envelope magic mismatch"
  else if headerLength < 1 ∨ 64 * 1024 < headerLength then
    tampered "Bronze envelope header length is invalid"
  else
    let fields ← readDict headerBytes
    if fields["version"]? ≠ some (.str "argo.dt.bronze/v1") ∨
        fields["object_id"]? ≠ some (.str objectId) ∨
        fields["subject_digest"]? ≠ some (.str digest) then
      tampered "Bronze envelope routing identity mismatch"
    else
      let nonce ← decodeNonce =<< text fields "nonce"
      if nonce.length ≠ 12 then tampered "Bronze envelope nonce length is invalid"
      else
        let keyId ← text fields "key_id"
        let key ← keys.keyForId subjectId keyId
        pure ⟨keyId, key, nonce, headerBytes, envelope.drop (offset + 4 + headerLength)⟩

/-- What stands in the envelope at a path. -/
def authenticate (keys : KeyProvider) (subjectId objectUri digest objectId : String)
    (envelope : Bytes) : Except VaultError (BronzeObject × Bytes) := do
  let found ← routed keys subjectId digest objectId envelope
  let plaintext ← decrypt found.key found.nonce found.ciphertext found.aad
  unframed subjectId objectUri found.keyId plaintext

/-- `except (IntegrityError, NotFound): raise`, and any other exception as
`IntegrityError`. -/
def failClosed {α : Type} : Except VaultError α → Except VaultError α
  | .error (.notFound message) => .error (.notFound message)
  | .error (.raised (.integrityError message)) => tampered message
  | .error (.raised _) => tampered "Bronze object authentication failed"
  | .ok a => .ok a

/-! ## The vault -/

/-- `get`. -/
def get (keys : KeyProvider) (v : Vault) (subjectId objectUri : String) :
    Except VaultError (BronzeObject × Bytes) := do
  let (digest, objectId) ← parseUri objectUri
  if digest ≠ subjectDigest subjectId then
    .error (.notFound "Bronze object does not belong to this subject")
  else
    match ← path v digest objectId with
    | none => .error (.notFound "Bronze object was not found")
    | some envelope =>
      failClosed (authenticate keys subjectId objectUri digest objectId envelope)

/-- `delete`. -/
def delete (subjectId objectUri : String) : EStateM VaultError Vault Bool := do
  let v ← getThe Vault
  let (digest, objectId) ← fromExcept (parseUri objectUri)
  if digest ≠ subjectDigest subjectId then
    throw (.notFound "Bronze object does not belong to this subject")
  else
    match ← fromExcept (path v digest objectId) with
    | none => pure false
    | some _ =>
      set { v with files := Function.update v.files (digest, objectId) none }
      pure true

/-- What a put is called with. -/
structure PutArgs where
  subjectId : String
  mediaType : String
  content : Bytes
  metadata : Payload

namespace PutArgs

variable (args : PutArgs)

def digest : String := subjectDigest args.subjectId

def valueHash : String := contentHash args.content

def objectId : String :=
  deterministicObjectId args.subjectId args.mediaType args.valueHash args.metadata

def objectUri : String := uri args.digest args.objectId

theorem digest_eq : args.digest = subjectDigest args.subjectId := rfl

theorem objectUri_eq : args.objectUri = uri (subjectDigest args.subjectId) args.objectId := rfl

/-- The record a put stores. -/
def record (keyId : String) (now : Instant) : BronzeObject where
  objectUri := args.objectUri
  subjectId := args.subjectId
  mediaType := args.mediaType
  contentHash := args.valueHash
  metadata := args.metadata
  keyId := keyId
  createdAt := .utc now

/-- The material is not what an object was stored with. -/
def changed (found : BronzeObject × Bytes) : Prop :=
  found.1.contentHash ≠ args.valueHash ∨ found.2 ≠ args.content ∨
    found.1.mediaType ≠ args.mediaType ∨
    canonicalJson (.ofPayload found.1.metadata) ≠ canonicalJson (.ofPayload args.metadata)

instance (found : BronzeObject × Bytes) : Decidable (args.changed found) := by
  unfold changed
  infer_instance

end PutArgs

/-- The envelope a put writes, and the message that is sealed in it. -/
def sealObject (keys : KeyProvider) (readings : PutReadings) (args : PutArgs) :
    Except VaultError (Sealed × Bytes) := do
  let (keyId, key) ← keys.activeKey args.subjectId
  if key.length ≠ 32 then violated "key provider did not return an AES-256 key"
  else
    let aad := written (header keyId readings.nonce args.objectId args.digest)
    let metadata := written (sealedMetadata (args.record keyId readings.now))
    let metadataLength ← sized 8 metadata
    let plaintext := metadataLength ++ metadata ++ args.content
    let ciphertext := P.encrypt key readings.nonce plaintext aad
    let headerLength ← sized 4 aad
    pure (⟨key, readings.nonce, aad, plaintext, ciphertext⟩,
      magic ++ headerLength ++ aad ++ ciphertext)

/-- An object stored before is read back and compared. -/
def compare (keys : KeyProvider) (v : Vault) (args : PutArgs) (message : String) :
    Except VaultError (String × String) := do
  let found ← get keys v args.subjectId args.objectUri
  if args.changed found then violated message else pure (args.objectUri, args.valueHash)

/-- `os.link` puts the envelope at its path, unless another came first. -/
def link (keys : KeyProvider) (args : PutArgs) (envelope : Bytes) :
    EStateM VaultError Vault (String × String) := do
  let v ← getThe Vault
  if v.files (args.digest, args.objectId) = none then
    set { v with
      files := Function.update v.files (args.digest, args.objectId) (some (.bytes envelope)) }
    pure (args.objectUri, args.valueHash)
  else
    fromExcept (compare keys v args
      "concurrent Bronze source identity changed acquisition material")

/-- `put`. -/
def put (maxObjectBytes : Nat) (keys : KeyProvider) (readings : PutReadings) (args : PutArgs) :
    EStateM VaultError Vault (String × String) := do
  let v ← getThe Vault
  if args.subjectId = "" ∨ args.mediaType = "" then
    fromExcept (violated "subject_id and media_type are required")
  else if maxObjectBytes < args.content.length then
    fromExcept (violated "Bronze object exceeds the configured byte limit")
  else
    match ← fromExcept (path v args.digest args.objectId) with
    | some _ =>
      fromExcept (compare keys v args
        "deterministic Bronze source identity changed acquisition material")
    | none =>
      let (message, envelope) ← fromExcept (sealObject keys readings args)
      set { v with sealed := message :: v.sealed }
      link keys args envelope

end EncryptedFileBronzeVault

end ArgoTwin
