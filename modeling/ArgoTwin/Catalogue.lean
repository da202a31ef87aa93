import ArgoTwin.Authentic
import ArgoTwin.Library.Answering
import ArgoTwin.Library.Delimited
/-!
# The vault is a catalogue of sources

What the vault is for is a map from sources to objects: a source is a
connector's record, or material of a media type, of one subject. As long
as the names of sources do not run together, the files and the cipher come
to nothing else: every run of calls is answered as the map answers it.
-/

namespace ArgoTwin

open Library

namespace EncryptedFileBronzeVault

/-- Where an object comes from. -/
inductive SourceIdentity where
  | source (connectorId sourceRecordId : String)
  | content (mediaType contentHash : String)
  deriving DecidableEq

/-- A source of one subject. -/
structure ObjectKey where
  subjectId : String
  source : SourceIdentity
  deriving DecidableEq

namespace SourceIdentity

def text : SourceIdentity → String
  | .source connectorId sourceRecordId => "source:" ++ connectorId ++ ":" ++ sourceRecordId
  | .content mediaType contentHash => "content:" ++ mediaType ++ ":" ++ contentHash

/-- A source that is written unlike any other: the connector has no colon,
and the hash is as long as hashes are. -/
def Plain : SourceIdentity → Prop
  | .source connectorId _ => ':' ∉ connectorId.toList
  | .content _ contentHash => contentHash.length = 71

instance (source : SourceIdentity) : Decidable source.Plain := by
  cases source <;> unfold Plain <;> infer_instance

/-- **Plain sources are told apart by their texts.** -/
theorem text_inj {a b : SourceIdentity} (ha : a.Plain) (hb : b.Plain) (h : a.text = b.text) :
    a = b := by
  have hlist := congrArg String.toList h
  cases a with
  | source connectorId recordId =>
    cases b with
    | source connectorId' recordId' =>
      have hjoined : connectorId.toList ++ ':' :: recordId.toList =
          connectorId'.toList ++ ':' :: recordId'.toList := by
        simpa [text] using hlist
      rcases joined_eq_iff.1 hjoined with ⟨hc, hr⟩ | ⟨m, ⟨hlong, -⟩ | ⟨hlong, -⟩⟩
      · rw [String.toList_inj.1 hc, String.toList_inj.1 hr]
      · exact absurd (by simp [hlong]) hb
      · exact absurd (by simp [hlong]) ha
    | content mediaType hash => simp [text] at hlist
  | content mediaType hash =>
    cases b with
    | source connectorId recordId => simp [text] at hlist
    | content mediaType' hash' =>
      have hlength : hash.toList.length = hash'.toList.length := by
        rw [String.length_toList, String.length_toList, ha, hb]
      have hjoined : (mediaType.toList ++ [':']) ++ hash.toList =
          (mediaType'.toList ++ [':']) ++ hash'.toList := by
        simpa [text] using hlist
      obtain ⟨hm, hh⟩ := List.append_inj' hjoined hlength
      rw [String.toList_inj.1 (List.append_cancel_right hm), String.toList_inj.1 hh]

end SourceIdentity

/-- What is stored of each source. -/
abbrev Catalogue := ObjectKey → Option (BronzeObject × Bytes)

variable [P : VaultPrimitives]

namespace ObjectKey

def name (key : ObjectKey) : String := "argo-dt:" ++ key.subjectId ++ ":" ++ key.source.text

/-- The place of a source's object. -/
def location (key : ObjectKey) : String × String := (subjectDigest key.subjectId, P.uuid5 key.name)

def objectUri (key : ObjectKey) : String := uri key.location.1 key.location.2

end ObjectKey

/-- The source of what is put. -/
def PutArgs.key (args : PutArgs) : ObjectKey where
  subjectId := args.subjectId
  source :=
    let connectorId := args.metadata.strD "connector_id" ""
    let sourceRecordId := args.metadata.strD "source_record_id" ""
    if connectorId ≠ "" ∧ sourceRecordId ≠ "" then .source connectorId sourceRecordId
    else .content args.mediaType args.valueHash

theorem PutArgs.location_key (args : PutArgs) :
    args.key.location = (args.digest, args.objectId) := by
  have htext : args.key.source.text =
      sourceIdentity args.mediaType args.valueHash args.metadata := by
    unfold PutArgs.key sourceIdentity
    dsimp only
    split_ifs <;> rfl
  rw [ObjectKey.location, ObjectKey.name, htext]
  rfl

/-! ## Calls and answers -/

inductive VaultCall where
  | put (readings : PutReadings) (args : PutArgs)
  | get (subjectId : String) (key : ObjectKey)
  | delete (subjectId : String) (key : ObjectKey)

inductive VaultAnswer where
  | put (answer : Except VaultError (String × String))
  | get (answer : Except VaultError (BronzeObject × Bytes))
  | delete (answer : Except VaultError Bool)

/-- A call of the vault; objects are asked for by their URIs. -/
def perform (maxObjectBytes : Nat) (keys : KeyProvider) : VaultCall → Vault → VaultAnswer × Vault
  | .put readings args, v =>
    (.put (outcome (put maxObjectBytes keys readings args) v),
      finalState (put maxObjectBytes keys readings args) v)
  | .get subjectId key, v => (.get (get keys v subjectId key.objectUri), v)
  | .delete subjectId key, v =>
    (.delete (outcome (delete subjectId key.objectUri) v),
      finalState (delete subjectId key.objectUri) v)

namespace Catalogue

/-- Putting an object: the first of a source is stored, and from then on its
material may only be repeated. -/
def put (maxObjectBytes : Nat) (keys : KeyProvider) (readings : PutReadings) (args : PutArgs)
    (m : Catalogue) : Except VaultError (String × String) × Catalogue :=
  if args.subjectId = "" ∨ args.mediaType = "" then
    (violated "subject_id and media_type are required", m)
  else if maxObjectBytes < args.content.length then
    (violated "Bronze object exceeds the configured byte limit", m)
  else
    match m args.key with
    | some (record, content) =>
      if record.contentHash = args.valueHash ∧ content = args.content ∧
          record.mediaType = args.mediaType ∧ record.metadata = args.metadata then
        (.ok (args.objectUri, args.valueHash), m)
      else
        (violated "deterministic Bronze source identity changed acquisition material", m)
    | none =>
      match keys.activeKey args.subjectId with
      | .error e => (.error e, m)
      | .ok (keyId, _) =>
        (.ok (args.objectUri, args.valueHash),
          Function.update m args.key (some (args.record keyId readings.now, args.content)))

def perform (maxObjectBytes : Nat) (keys : KeyProvider) :
    VaultCall → Catalogue → VaultAnswer × Catalogue
  | .put readings args, m =>
    let (answer, m') := put maxObjectBytes keys readings args m
    (.put answer, m')
  | .get subjectId key, m =>
    if subjectId ≠ key.subjectId then
      (.get (.error (.notFound "Bronze object does not belong to this subject")), m)
    else
      match m key with
      | none => (.get (.error (.notFound "Bronze object was not found")), m)
      | some found => (.get (.ok found), m)
  | .delete subjectId key, m =>
    if subjectId ≠ key.subjectId then
      (.delete (.error (.notFound "Bronze object does not belong to this subject")), m)
    else (.delete (.ok (m key).isSome), Function.update m key none)

end Catalogue

/-! ## What the catalogue rests on -/

/-- What is documented of the primitives: digests are sixty-four digits of
base sixteen, a UUID is read and has no slash, and what was enciphered is
deciphered. -/
structure Documented (P : VaultPrimitives) : Prop where
  length_digest : ∀ data, (P.sha256 data).length = 64
  hex_digest : ∀ data, ∀ c ∈ (P.sha256 data).toList, c ∈ "0123456789abcdef".toList
  uuid_read : ∀ name, P.isUuid (P.uuid5 name) = true
  uuid_plain : ∀ name, '/' ∉ (P.uuid5 name).toList
  deciphered : ∀ key nonce plaintext aad, key.length = 32 → nonce.length = 12 →
    P.decrypt key nonce (P.encrypt key nonce plaintext aad) aad = some plaintext

/-- A provider that keeps the keys it has given out. -/
structure Reliable (keys : KeyProvider) : Prop where
  length_key : ∀ subjectId keyId key, keys.activeKey subjectId = .ok (keyId, key) → key.length = 32
  kept : ∀ subjectId keyId key, keys.activeKey subjectId = .ok (keyId, key) →
    keys.keyForId subjectId keyId = .ok key

/-- Sources that do not run together: they are plain, and neither digests of
subjects nor the UUIDs of their names collide. -/
structure Apart (sources : Set ObjectKey) (subjects : Set String) : Prop where
  plain : ∀ key ∈ sources, key.source.Plain
  subject_mem : ∀ key ∈ sources, key.subjectId ∈ subjects
  digests : Set.InjOn subjectDigest subjects
  names : Set.InjOn P.uuid5 (ObjectKey.name '' sources)

/-- What is put can be written and enciphered (a message has less than 2^31
bytes), and the header is short enough to be read: `get` limits its length,
and `put` does not. -/
structure Writable (keys : KeyProvider) (readings : PutReadings) (args : PutArgs) : Prop where
  proper : Json.Proper P.reader.nearest (.ofPayload args.metadata)
  fits : 8 + (written (sealedMetadata (args.record "" readings.now))).length +
    args.content.length < 2 ^ 31
  short : ∀ keyId key, keys.activeKey args.subjectId = .ok (keyId, key) →
    (written (header keyId readings.nonce args.objectId args.digest)).length ≤ 64 * 1024

/-- A call about these sources and subjects. -/
def Concerns (keys : KeyProvider) (sources : Set ObjectKey) (subjects : Set String) :
    VaultCall → Prop
  | .put readings args => args.key ∈ sources ∧ Writable keys readings args
  | .get subjectId key | .delete subjectId key => key ∈ sources ∧ subjectId ∈ subjects

/-! ## The vault represents a catalogue -/

section Represents

variable {keys : KeyProvider} {sources : Set ObjectKey} {subjects : Set String} {v : Vault}
  {m : Catalogue} {key key' : ObjectKey} {found : BronzeObject × Bytes}

theorem Apart.location_inj (h : Apart sources subjects) (hkey : key ∈ sources)
    (hkey' : key' ∈ sources) (hsame : key.location = key'.location) : key = key' := by
  obtain ⟨hdigest, huuid⟩ := Prod.mk.inj hsame
  have hsubject : key.subjectId = key'.subjectId :=
    h.digests (h.subject_mem key hkey) (h.subject_mem key' hkey') hdigest
  have hname : key.name = key'.name := h.names ⟨key, hkey, rfl⟩ ⟨key', hkey', rfl⟩ huuid
  have htext : key.source.text = key'.source.text := by
    rw [ObjectKey.name, ObjectKey.name, hsubject] at hname
    exact (String.append_right_inj _).1 hname
  have hsource := SourceIdentity.text_inj (h.plain key hkey) (h.plain key' hkey') htext
  cases key
  cases key'
  simp_all

/-- **The URI of a source is read as its place.** -/
theorem parseUri_objectUri (hdocumented : Documented P) (key : ObjectKey) :
    parseUri key.objectUri = .ok key.location := by
  have hdigest : key.location.1.length = 64 := hdocumented.length_digest _
  have hhex : ∀ c ∈ key.location.1.toList, c ∈ "0123456789abcdef".toList :=
    hdocumented.hex_digest _
  have hslash : '/' ∉ key.location.1.toList := fun hmem => absurd (hhex _ hmem) (by decide)
  have hplain : '/' ∉ key.location.2.toList := hdocumented.uuid_plain _
  have huri : key.objectUri.toList =
      "bronze://".toList ++ (key.location.1.toList ++ '/' :: key.location.2.toList) := by
    simp [ObjectKey.objectUri, uri]
  have hsplit : (key.location.1.toList ++ '/' :: key.location.2.toList).splitOn '/' =
      [key.location.1.toList, key.location.2.toList] := by
    have hjoined : (['/'].intercalate [key.location.1.toList, key.location.2.toList]).splitOn '/' =
        [key.location.1.toList, key.location.2.toList] :=
      List.splitOn_intercalate '/' (by simp [hslash, hplain]) (by simp)
    simpa [List.intercalate] using hjoined
  have hstart : "bronze://".toList.isPrefixOf key.objectUri.toList = true := by
    rw [huri, List.isPrefixOf_iff_prefix]
    exact List.prefix_append _ _
  unfold parseUri
  dsimp only
  rw [if_pos hstart, huri, List.drop_left, hsplit]
  have hany : (key.location.1.toList.any fun c => !"0123456789abcdef".toList.contains c) = false := by
    rw [List.any_eq_false]
    intro c hc
    have hcontains := List.contains_iff_mem.2 (hhex c hc)
    rw [hcontains]
    decide
  have hlength : ¬ key.location.1.toList.length ≠ 64 := by
    rw [String.length_toList]
    exact not_not.2 hdigest
  have hread : P.isUuid key.location.2 = true := hdocumented.uuid_read _
  simp only [if_neg hlength, hany, Bool.false_eq_true, if_false, hread, if_true,
    String.ofList_toList]

/-- An object as it stands in a file: sealed in a message whose key the
provider still gives out, under a header that is not too long. -/
structure StoredAs (keys : KeyProvider) (key : ObjectKey) (found : BronzeObject × Bytes)
    (message : Sealed) (envelope : Bytes) : Prop where
  from_object : SealedFrom message found
  subject : found.1.subjectId = key.subjectId
  at_uri : found.1.objectUri = key.objectUri
  length_nonce : message.nonce.length = 12
  key_kept : keys.keyForId key.subjectId found.1.keyId = .ok message.key
  length_key : message.key.length = 32
  short : message.aad.length ≤ 64 * 1024
  enciphered : message.ciphertext =
    P.encrypt message.key message.nonce message.plaintext message.aad
  enclosed : envelope =
    magic ++ toBytes 4 message.aad.length ++ message.aad ++ message.ciphertext

/-- **A stored object is read back.** -/
theorem authenticate_eq (hdocumented : Documented P) {message : Sealed} {envelope : Bytes}
    (h : StoredAs keys key found message envelope) :
    authenticate keys key.subjectId key.objectUri key.location.1 key.location.2 envelope =
      .ok found := by
  obtain ⟨objectId, huri, haad⟩ := h.from_object.routed
  have hobject : objectId = key.location.2 := by
    have hsame : uri key.location.1 objectId = uri key.location.1 key.location.2 := by
      rw [← ObjectKey.objectUri, ← h.at_uri, huri, h.subject]
      rfl
    exact (String.append_right_inj _).1 hsame
  rw [hobject, h.subject] at haad
  have hdigest : subjectDigest key.subjectId = key.location.1 := rfl
  rw [hdigest] at haad
  have hpositive : 2 ≤ message.aad.length := haad ▸ two_le_length_written _
  have hshort := h.short
  have hfits : message.aad.length < 256 ^ 4 := by
    have hlimit : 64 * 1024 < 256 ^ 4 := by decide
    omega
  -- the envelope comes apart where it was put together
  have hprefix : magic.isPrefixOf envelope = true := by
    rw [List.isPrefixOf_iff_prefix, h.enclosed, List.append_assoc, List.append_assoc]
    exact List.prefix_append _ _
  have hafter : envelope.drop magic.length =
      toBytes 4 message.aad.length ++ (message.aad ++ message.ciphertext) := by
    rw [h.enclosed, List.append_assoc, List.append_assoc, List.drop_left]
  have hsize : (envelope.drop magic.length).take 4 = toBytes 4 message.aad.length := by
    rw [hafter, List.take_left' (length_toBytes 4 _)]
  have hrest : envelope.drop (magic.length + 4) = message.aad ++ message.ciphertext := by
    rw [← List.drop_drop, hafter, List.drop_left' (length_toBytes 4 _)]
  have hcipher : envelope.drop (magic.length + 4 + message.aad.length) = message.ciphertext := by
    rw [← List.drop_drop, hrest, List.drop_left]
  -- its header is read back, and names the object asked for
  have hfields : readDict message.aad =
      .ok (header found.1.keyId message.nonce key.location.2 key.location.1) := by
    rw [haad]
    exact readDict_written (proper_header _ _ _ _)
  have hlookup : ∀ name, (header found.1.keyId message.nonce key.location.2 key.location.1)[name]? =
      List.lookup name
        [("subject_digest", .str key.location.1), ("object_id", .str key.location.2),
          ("nonce", .str (String.ofList (Alphabet.standard.encode message.nonce))),
          ("key_id", .str found.1.keyId), ("version", .str "argo.dt.bronze/v1")] := by
    intro name
    rw [header, Payload.getElem?_ofFields]
    rfl
  have hrouting :
      ¬((header found.1.keyId message.nonce key.location.2 key.location.1)["version"]? ≠
          some (.str "argo.dt.bronze/v1") ∨
        (header found.1.keyId message.nonce key.location.2 key.location.1)["object_id"]? ≠
          some (.str key.location.2) ∨
        (header found.1.keyId message.nonce key.location.2 key.location.1)["subject_digest"]? ≠
          some (.str key.location.1)) := by
    rw [hlookup, hlookup, hlookup]
    simp [List.lookup_cons]
  have hnonce : (decodeNonce =<<
      text (header found.1.keyId message.nonce key.location.2 key.location.1) "nonce") =
        .ok message.nonce := by
    rw [text, hlookup]
    show decodeNonce (String.ofList (Alphabet.standard.encode message.nonce)) = _
    rw [decodeNonce, String.toList_ofList, Alphabet.decode_encode]
  have hkeyId : text (header found.1.keyId message.nonce key.location.2 key.location.1) "key_id" =
      .ok found.1.keyId := by
    rw [text, hlookup]
    rfl
  have hopened : decrypt message.key message.nonce message.ciphertext message.aad =
      .ok message.plaintext := by
    rw [decrypt, if_neg (by simp [h.length_key]), h.enciphered,
      hdocumented.deciphered _ _ _ _ h.length_key h.length_nonce]
  -- the message under it is deciphered, and is the framed object
  obtain ⟨now, hnow, hcreated⟩ := h.from_object.dated
  obtain ⟨size, hsized, hplaintext⟩ := h.from_object.framed
  have hunframed := unframed_eq h.from_object.proper h.from_object.hashed hnow hcreated hsized
  rw [← hplaintext, h.subject, h.at_uri] at hunframed
  have hlengths : ¬(message.aad.length < 1 ∨ 64 * 1024 < message.aad.length) := by omega
  have hkey := h.key_kept
  have hlength : ¬ message.nonce.length ≠ 12 := not_not.2 h.length_nonce
  simp only [authenticate, routed, hsize, ofBytes_toBytes hfits, hrest, List.take_left, hcipher,
    hprefix, not_true_eq_false, if_false, if_neg hlengths, hfields, ok_bind, if_neg hrouting, hnonce,
    if_neg hlength, hkeyId, hkey, pure_bind, hopened, hunframed]

/-- **The vault stands for a catalogue**: nothing is where a source has no
object, and where it has one its file can be read. -/
structure Represents (keys : KeyProvider) (sources : Set ObjectKey) (v : Vault) (m : Catalogue) :
    Prop where
  absent : ∀ key ∈ sources, m key = none → v.files key.location = none
  present : ∀ key ∈ sources, ∀ found, m key = some found → ∃ message envelope,
    StoredAs keys key found message envelope ∧ v.files key.location = some (.bytes envelope)

/-- A read is answered out of the catalogue. -/
theorem Represents.get_eq (h : Represents keys sources v m) (hdocumented : Documented P)
    (hapart : Apart sources subjects) {subjectId : String} (hkey : key ∈ sources)
    (hsubject : subjectId ∈ subjects) :
    get keys v subjectId key.objectUri =
      if subjectId ≠ key.subjectId then
        .error (.notFound "Bronze object does not belong to this subject")
      else
        match m key with
        | none => .error (.notFound "Bronze object was not found")
        | some found => .ok found := by
  have hdigest : key.location.1 ≠ subjectDigest subjectId ↔ subjectId ≠ key.subjectId := by
    refine not_congr ⟨fun hsame => ?_, fun hsame => hsame ▸ rfl⟩
    exact hapart.digests hsubject (hapart.subject_mem key hkey) hsame.symm
  rw [get, parseUri_objectUri hdocumented, ok_bind]
  dsimp only
  by_cases hown : subjectId = key.subjectId
  · rw [if_neg (hdigest.not.2 (not_not.2 hown)), if_neg (not_not.2 hown)]
    cases hm : m key with
    | none =>
      have hpath : path v key.location.1 key.location.2 = .ok none :=
        path_eq_none.2 (h.absent key hkey hm)
      rw [hpath, ok_bind]
    | some found =>
      obtain ⟨message, envelope, hstored, hfile⟩ := h.present key hkey found hm
      have hpath : path v key.location.1 key.location.2 = .ok (some envelope) := by
        rw [path, hfile]
      rw [hpath, ok_bind]
      dsimp only
      rw [hown, authenticate_eq hdocumented hstored]
      rfl
  · rw [if_pos (hdigest.2 hown), if_pos hown]

theorem PutArgs.objectUri_key (args : PutArgs) : args.key.objectUri = args.objectUri := by
  rw [ObjectKey.objectUri, args.location_key]
  rfl

variable {readings : PutReadings} {args : PutArgs}

/-- What a put seals can be read back as long as the provider is reliable. -/
theorem sealObject_eq (hreliable : Reliable keys) {keyId : String} {secret : Bytes}
    (hkey : keys.activeKey args.subjectId = .ok (keyId, secret))
    (hwritable : Writable keys readings args) :
    ∃ message envelope, sealObject keys readings args = .ok (message, envelope) ∧
      StoredAs keys args.key (args.record keyId readings.now, args.content) message envelope := by
  have hlength := hreliable.length_key _ _ _ hkey
  have hshort := hwritable.short _ _ hkey
  obtain ⟨aad, haad⟩ : ∃ aad, aad = written (header keyId readings.nonce args.objectId args.digest) :=
    ⟨_, rfl⟩
  obtain ⟨data, hdata⟩ : ∃ data, data = written (sealedMetadata (args.record keyId readings.now)) :=
    ⟨_, rfl⟩
  rw [← haad] at hshort
  have hmetadata : sized 8 data = .ok (toBytes 8 data.length) := by
    rw [hdata]
    have hfits : (written (sealedMetadata (args.record keyId readings.now))).length < 256 ^ 8 := by
      have hbound := hwritable.fits
      change 8 + (written (sealedMetadata (args.record keyId readings.now))).length + _ < _ at hbound
      omega
    exact sized_eq_ok.2 ⟨hfits, rfl⟩
  have hheader : sized 4 aad = .ok (toBytes 4 aad.length) := by
    have hlimit : 64 * 1024 < 256 ^ 4 := by decide
    exact sized_eq_ok.2 ⟨by omega, rfl⟩
  obtain ⟨plaintext, hplaintext⟩ :
      ∃ plaintext, plaintext = toBytes 8 data.length ++ data ++ args.content := ⟨_, rfl⟩
  refine ⟨⟨secret, readings.nonce, aad, plaintext, P.encrypt secret readings.nonce plaintext aad⟩,
    magic ++ toBytes 4 aad.length ++ aad ++ P.encrypt secret readings.nonce plaintext aad, ?_, ?_⟩
  · simp only [sealObject, hkey, ok_bind, if_neg (not_not.2 hlength), ← hdata, ← haad, hmetadata,
      hheader, ← hplaintext]
    rfl
  · exact
      { from_object :=
          { routed := ⟨args.objectId, args.objectUri_eq, args.digest_eq ▸ haad⟩
            proper := hwritable.proper
            hashed := rfl
            dated := ⟨readings.now, readings.representable, rfl⟩
            framed := ⟨toBytes 8 data.length, hdata ▸ hmetadata, hdata ▸ hplaintext⟩ }
        subject := rfl
        at_uri := args.objectUri_key.symm
        length_nonce := readings.length_nonce
        key_kept := hreliable.kept _ _ _ hkey
        length_key := hlength
        short := hshort
        enciphered := rfl
        enclosed := rfl }

/-- The vault tells changed material as the catalogue does. -/
theorem changed_iff (hfound : Json.Proper P.reader.nearest (.ofPayload found.1.metadata))
    (hproper : Json.Proper P.reader.nearest (.ofPayload args.metadata)) :
    args.changed found ↔ ¬(found.1.contentHash = args.valueHash ∧ found.2 = args.content ∧
      found.1.mediaType = args.mediaType ∧ found.1.metadata = args.metadata) := by
  have hmetadata : canonicalJson (.ofPayload found.1.metadata) =
      canonicalJson (.ofPayload args.metadata) ↔ found.1.metadata = args.metadata := by
    refine ⟨fun hsame => ?_, fun hsame => by rw [hsame]⟩
    have hvalue := Json.canonicalJson_inj hfound hproper hsame
    rw [Json.ofPayload, Json.ofPayload, Json.obj.injEq] at hvalue
    rw [← Payload.ofFields_toList found.1.metadata, hvalue, Payload.ofFields_toList]
  unfold PutArgs.changed
  rw [ne_eq, ne_eq, ne_eq, ne_eq, hmetadata]
  tauto

/-- Writing an object of a source leaves the others as they are. -/
theorem Represents.withObject (h : Represents keys sources v m) (hapart : Apart sources subjects)
    (hkey : args.key ∈ sources) {message : Sealed} {envelope : Bytes}
    (hstored : StoredAs keys args.key found message envelope) :
    Represents keys sources (withObject v args message envelope)
      (Function.update m args.key (some found)) := by
  have hother : ∀ key ∈ sources, key ≠ args.key →
      (EncryptedFileBronzeVault.withObject v args message envelope).files key.location =
        v.files key.location := by
    intro key hmem hne
    refine Function.update_of_ne (fun hsame => hne ?_) _ _
    exact hapart.location_inj hmem hkey (hsame.trans args.location_key.symm)
  refine ⟨?_, ?_⟩
  · intro key hmem hnone
    by_cases hsame : key = args.key
    · subst hsame
      simp at hnone
    · rw [Function.update_of_ne hsame] at hnone
      rw [hother key hmem hsame]
      exact h.absent key hmem hnone
  · intro key hmem object hobject
    by_cases hsame : key = args.key
    · subst hsame
      obtain rfl : found = object := by simpa using hobject
      refine ⟨message, envelope, hstored, ?_⟩
      rw [args.location_key]
      exact Function.update_self _ _ _
    · rw [Function.update_of_ne hsame] at hobject
      rw [hother key hmem hsame]
      exact h.present key hmem object hobject

/-- Removing the object of a source leaves the others as they are. -/
theorem Represents.without (h : Represents keys sources v m) (hapart : Apart sources subjects)
    (hkey : key ∈ sources) :
    Represents keys sources { v with files := Function.update v.files key.location none }
      (Function.update m key none) := by
  have hother : ∀ key' ∈ sources, key' ≠ key →
      Function.update v.files key.location none key'.location = v.files key'.location := by
    intro key' hmem hne
    exact Function.update_of_ne (fun hsame => hne (hapart.location_inj hmem hkey hsame)) _ _
  refine ⟨?_, ?_⟩
  · intro key' hmem hnone
    by_cases hsame : key' = key
    · rw [hsame]
      exact Function.update_self _ _ _
    · rw [Function.update_of_ne hsame] at hnone
      exact (hother key' hmem hsame).trans (h.absent key' hmem hnone)
  · intro key' hmem object hobject
    by_cases hsame : key' = key
    · subst hsame
      simp at hobject
    · rw [Function.update_of_ne hsame] at hobject
      obtain ⟨message, envelope, hstored, hfile⟩ := h.present key' hmem object hobject
      exact ⟨message, envelope, hstored, (hother key' hmem hsame).trans hfile⟩

variable {maxObjectBytes : Nat}

variable (maxObjectBytes) in
/-- **A put is answered out of the catalogue**, and the two go on alike. -/
theorem Represents.put (h : Represents keys sources v m) (hdocumented : Documented P)
    (hreliable : Reliable keys) (hapart : Apart sources subjects) (hkey : args.key ∈ sources)
    (hwritable : Writable keys readings args) :
    outcome (put maxObjectBytes keys readings args) v =
        (Catalogue.put maxObjectBytes keys readings args m).1 ∧
      Represents keys sources (finalState (EncryptedFileBronzeVault.put maxObjectBytes keys
        readings args) v) (Catalogue.put maxObjectBytes keys readings args m).2 := by
  have hput := put_eq maxObjectBytes keys readings args v
  unfold outcome finalState Catalogue.put
  rw [hput]
  split_ifs with hrequired hlimit
  · exact ⟨rfl, h⟩
  · exact ⟨rfl, h⟩
  · cases hm : m args.key with
    | some found =>
      obtain ⟨message, envelope, hstored, hfile⟩ := h.present args.key hkey found hm
      have hpath : path v args.digest args.objectId = .ok (some envelope) := by
        rw [args.location_key] at hfile
        rw [path, hfile]
      have hread : get keys v args.subjectId args.objectUri = .ok found := by
        have hsubject : args.subjectId ∈ subjects := hapart.subject_mem args.key hkey
        have hown : ¬ args.subjectId ≠ args.key.subjectId := not_not.2 rfl
        rw [← args.objectUri_key, h.get_eq hdocumented hapart hkey hsubject, if_neg hown, hm]
      have hchanged := changed_iff hstored.from_object.proper hwritable.proper
      obtain ⟨record, content⟩ := found
      simp only [hpath, compare, hread, ok_bind]
      by_cases hsame : args.changed (record, content)
      · rw [if_pos hsame, if_neg (hchanged.1 hsame)]
        exact ⟨rfl, h⟩
      · rw [if_neg hsame, if_pos (not_not.1 (hchanged.not.1 hsame))]
        exact ⟨rfl, h⟩
    | none =>
      have hpath : path v args.digest args.objectId = .ok none := by
        have habsent := h.absent args.key hkey hm
        rw [args.location_key] at habsent
        exact path_eq_none.2 habsent
      simp only [hpath]
      cases hactive : keys.activeKey args.subjectId with
      | error e =>
        have hrefused : sealObject keys readings args = .error e := by
          rw [sealObject, hactive]
          rfl
        rw [hrefused]
        exact ⟨rfl, h⟩
      | ok secret =>
        obtain ⟨keyId, secret⟩ := secret
        obtain ⟨message, envelope, hsealed, hstored⟩ := sealObject_eq hreliable hactive hwritable
        rw [hsealed]
        exact ⟨rfl, h.withObject hapart hkey hstored⟩

/-- **Every call is answered out of the catalogue**, and the two go on
alike. -/
theorem Represents.perform (hdocumented : Documented P) (hreliable : Reliable keys)
    (hapart : Apart sources subjects) {call : VaultCall} (h : Represents keys sources v m)
    (hconcerns : Concerns keys sources subjects call) :
    (perform maxObjectBytes keys call v).1 = (Catalogue.perform maxObjectBytes keys call m).1 ∧
      Represents keys sources (EncryptedFileBronzeVault.perform maxObjectBytes keys call v).2
        (Catalogue.perform maxObjectBytes keys call m).2 := by
  cases call with
  | put readings args =>
    obtain ⟨hkey, hwritable⟩ := hconcerns
    obtain ⟨hanswer, hnext⟩ := h.put maxObjectBytes hdocumented hreliable hapart hkey hwritable
    exact ⟨congrArg VaultAnswer.put hanswer, hnext⟩
  | get subjectId key =>
    have hread := h.get_eq hdocumented hapart hconcerns.1 hconcerns.2
    unfold EncryptedFileBronzeVault.perform Catalogue.perform
    dsimp only
    rw [hread]
    split_ifs with hown
    · exact ⟨rfl, h⟩
    · cases m key with
      | none => exact ⟨rfl, h⟩
      | some found => exact ⟨rfl, h⟩
  | delete subjectId key =>
    obtain ⟨hkey, hsubject⟩ := hconcerns
    have hdigest : key.location.1 ≠ subjectDigest subjectId ↔ subjectId ≠ key.subjectId := by
      refine not_congr ⟨fun hsame => ?_, fun hsame => hsame ▸ rfl⟩
      exact hapart.digests hsubject (hapart.subject_mem key hkey) hsame.symm
    unfold EncryptedFileBronzeVault.perform Catalogue.perform outcome finalState
    dsimp only
    rw [delete_eq, parseUri_objectUri hdocumented]
    dsimp only
    by_cases hown : subjectId = key.subjectId
    · rw [if_neg (hdigest.not.2 (not_not.2 hown)), if_neg (not_not.2 hown)]
      cases hm : m key with
      | none =>
        have hpath : path v key.location.1 key.location.2 = .ok none :=
          path_eq_none.2 (h.absent key hkey hm)
        have hsame : Function.update m key none = m := by
          rw [← hm, Function.update_eq_self]
        rw [hpath, hsame]
        exact ⟨rfl, h⟩
      | some found =>
        obtain ⟨message, envelope, hstored, hfile⟩ := h.present key hkey found hm
        have hpath : path v key.location.1 key.location.2 = .ok (some envelope) := by
          rw [path, hfile]
        rw [hpath]
        exact ⟨rfl, h.without hapart hkey⟩
    · rw [if_pos (hdigest.2 hown), if_pos hown]
      exact ⟨rfl, h⟩

/-- **The vault is a catalogue of sources.** As long as the sources that are
put, asked for and deleted do not run together, an empty vault answers every
run of calls as an empty map from sources to objects does: the first object
of a source is stored, may be put again only as it is, is read back as it
was put until it is deleted, and no source disturbs another. -/
theorem vault_replies (hdocumented : Documented P) (hreliable : Reliable keys)
    (hapart : Apart sources subjects) {calls : List VaultCall}
    (hcalls : ∀ call ∈ calls, Concerns keys sources subjects call) :
    replies (EncryptedFileBronzeVault.perform maxObjectBytes keys) calls
        { files := fun _ => none, sealed := [] } =
      replies (Catalogue.perform maxObjectBytes keys) calls fun _ => none := by
  have hempty : Represents keys sources { files := fun _ => none, sealed := [] } fun _ => none :=
    ⟨fun _ _ _ => rfl, by simp⟩
  exact replies_eq (fun call v m h hconcerns => h.perform hdocumented hreliable hapart hconcerns)
    hcalls hempty

end Represents

/-! ## A run -/

omit P in
theorem mem_hexText {width n : Nat} {c : Char} (h : c ∈ (hexText width n).toList) :
    c ∈ "0123456789abcdef".toList := by
  rw [hexText, String.toList_ofList] at h
  obtain ⟨i, -, rfl⟩ := List.mem_map.1 h
  have hdigit : ∀ d < 16, Nat.digitChar d ∈ "0123456789abcdef".toList := by decide
  exact hdigit _ (Nat.mod_lt _ (by decide))

omit P in
theorem length_hexText (width n : Nat) : (hexText width n).length = width := by
  rw [hexText, String.length_ofList, List.length_map, List.length_range]

omit P in
theorem documented_checksumPrimitives : Documented checksumPrimitives where
  length_digest _ := length_hexText 64 _
  hex_digest _ _ h := mem_hexText h
  uuid_read _ := by
    show decide (_ ∧ _) = true
    rw [decide_eq_true_eq]
    refine ⟨length_hexText 32 _, List.all_eq_true.2 fun c hc => ?_⟩
    exact List.contains_iff_mem.2 (mem_hexText hc)
  uuid_plain _ h := absurd (mem_hexText h) (by decide)
  deciphered key nonce plaintext aad _ _ := by
    have htag : (checksumTag key nonce plaintext aad).length = 16 := length_toBytes 16 _
    have hlength : (plaintext.reverse ++ checksumTag key nonce plaintext aad).length - 16 =
        plaintext.reverse.length := by
      rw [List.length_append, htag, Nat.add_sub_cancel]
    have hread : ∀ ciphertext,
        checksumPrimitives.decrypt key nonce ciphertext aad =
          if ciphertext.drop (ciphertext.length - 16) =
              checksumTag key nonce (ciphertext.take (ciphertext.length - 16)).reverse aad then
            some (ciphertext.take (ciphertext.length - 16)).reverse
          else none := fun _ => rfl
    show checksumPrimitives.decrypt key nonce (plaintext.reverse ++ checksumTag key nonce plaintext aad)
      aad = some plaintext
    rw [hread, hlength, List.take_left, List.drop_left, List.reverse_reverse, if_pos rfl]

omit P in
theorem reliable_staticKeys {keyId : String} {key : Bytes} (h : key.length = 32) :
    Reliable (staticKeys keyId key) := by
  have hactive : ∀ {subjectId keyId' key'},
      (staticKeys keyId key).activeKey subjectId = .ok (keyId', key') →
        subjectId ≠ "" ∧ keyId = keyId' ∧ key = key' := by
    intro subjectId keyId' key' hkey
    unfold staticKeys at hkey
    dsimp only at hkey
    split_ifs at hkey with hempty
    obtain ⟨rfl, rfl⟩ := Prod.mk.inj (Except.ok.inj hkey)
    exact ⟨hempty, rfl, rfl⟩
  refine ⟨fun subjectId keyId' key' hkey => ?_, fun subjectId keyId' key' hkey => ?_⟩
  · obtain ⟨-, -, rfl⟩ := hactive hkey
    exact h
  · obtain ⟨hsubject, rfl, rfl⟩ := hactive hkey
    simp [staticKeys, hsubject]

omit P in
/-- Two notes of one connector are kept, one of them until it is deleted. -/
theorem vault_replies_notes :
    let _ : VaultPrimitives := checksumPrimitives
    let first := note "ehr" "r1" "observed"
    let second := note "ehr" "r2" "measured"
    let calls : List VaultCall :=
      [.put firstReadings first, .put firstReadings second, .get "subject-1" first.key,
        .put firstReadings (note "ehr" "r1" "altered"), .delete "subject-1" first.key,
        .get "subject-1" first.key, .get "subject-1" second.key]
    replies (EncryptedFileBronzeVault.perform 100 localKeys) calls
        { files := fun _ => none, sealed := [] } =
      replies (Catalogue.perform 100 localKeys) calls fun _ => none := by
  intro primitives first second calls
  refine @vault_replies primitives localKeys {first.key, second.key} {"subject-1"} 100
    documented_checksumPrimitives (reliable_staticKeys rfl) ?_ calls ?_
  · refine ⟨?_, ?_, ?_, ?_⟩
    · rintro key (rfl | rfl) <;> decide +kernel
    · rintro key (rfl | rfl) <;> rfl
    · exact Set.injOn_singleton _ _
    · rw [Set.image_pair]
      have hapart : VaultPrimitives.uuid5 first.key.name ≠ VaultPrimitives.uuid5 second.key.name := by
        decide +kernel
      rintro _ (rfl | rfl) _ (rfl | rfl) hsame
      · rfl
      · exact absurd hsame hapart
      · exact absurd hsame.symm hapart
      · rfl
  · have hfirst : first.key ∈ ({first.key, second.key} : Set ObjectKey) := .inl rfl
    have hsecond : second.key ∈ ({first.key, second.key} : Set ObjectKey) := .inr rfl
    have hsubject : "subject-1" ∈ ({"subject-1"} : Set String) := rfl
    have hwritable : ∀ recordId text : String,
        8 + (written (sealedMetadata ((note "ehr" recordId text).record "" 0))).length +
          (utf8 text).length < 2 ^ 31 →
        (written (header "local" firstReadings.nonce (note "ehr" recordId text).objectId
          (note "ehr" recordId text).digest)).length ≤ 64 * 1024 →
        Writable localKeys firstReadings (note "ehr" recordId text) := by
      intro recordId text hfits hshort
      refine ⟨proper_note _ _ _ _, hfits, fun keyId key hkey => ?_⟩
      have hactive : localKeys.activeKey "subject-1" = .ok ("local", List.replicate 32 7) := rfl
      obtain ⟨rfl, -⟩ := Prod.mk.inj (Except.ok.inj (hactive.symm.trans hkey))
      exact hshort
    have hobserved := hwritable "r1" "observed" (by decide +kernel) (by decide +kernel)
    have hmeasured := hwritable "r2" "measured" (by decide +kernel) (by decide +kernel)
    have haltered := hwritable "r1" "altered" (by decide +kernel) (by decide +kernel)
    have hsame : (note "ehr" "r1" "altered").key ∈ ({first.key, second.key} : Set ObjectKey) := by
      have hkey : (note "ehr" "r1" "altered").key = first.key := by decide +kernel
      rw [hkey]
      exact hfirst
    intro call hcall
    simp only [calls, List.mem_cons, List.not_mem_nil, or_false] at hcall
    rcases hcall with rfl | rfl | rfl | rfl | rfl | rfl | rfl
    · exact ⟨hfirst, hobserved⟩
    · exact ⟨hsecond, hmeasured⟩
    · exact ⟨hfirst, hsubject⟩
    · exact ⟨hsame, haltered⟩
    · exact ⟨hfirst, hsubject⟩
    · exact ⟨hfirst, hsubject⟩
    · exact ⟨hsecond, hsubject⟩

end EncryptedFileBronzeVault

end ArgoTwin
