import ArgoTwin.Bronze
/-!
# Envelopes are read back

A put seals a header's worth of routing and a frame of metadata and
content. Whatever bytes stand at a path, what is read off them the cipher
has let through, and what a put has sealed is read as what it was sealed
from.
-/

namespace ArgoTwin

open Library

namespace EncryptedFileBronzeVault

/-! ## Documents are read back -/

/-- The clock of a put is read back. -/
theorem parseTime_utc {now : Instant} (h : DateTime.Representable now) :
    parseTime (DateTime.utc now).isoformat = .ok (.utc now) := by
  have hread := parseTime_isoformat (d := .utc now) h (by rwa [DateTime.instant_utc]) rfl (by decide)
  rwa [DateTime.astimezoneUtc_utc] at hread

theorem sized_eq_ok {width : Nat} {data size : Bytes} :
    sized width data = .ok size ↔ data.length < 256 ^ width ∧ size = toBytes width data.length := by
  unfold sized
  split_ifs with h
  · simp [h, eq_comm]
  · simp [h]

variable [P : VaultPrimitives]

/-- A proper dictionary is read back. -/
theorem readDict_written {value : Payload} (h : Json.Proper P.reader.nearest (.ofPayload value)) :
    readDict (written value) = .ok value := by
  rw [readDict, readJson_written h]
  exact congrArg Except.ok (Payload.ofFields_toList value)

theorem proper_header (keyId : String) (nonce : Bytes) (objectId digest : String) :
    Json.Proper P.reader.nearest (.ofPayload (header keyId nonce objectId digest)) := by
  rw [header, ← Payload.object_eq]
  refine Json.proper_object fun field hfield => ?_
  simp only [List.mem_cons, List.not_mem_nil, or_false] at hfield
  rcases hfield with rfl | rfl | rfl | rfl | rfl <;> trivial

theorem proper_sealedMetadata {record : BronzeObject}
    (h : Json.Proper P.reader.nearest (.ofPayload record.metadata)) :
    Json.Proper P.reader.nearest (.ofPayload (sealedMetadata record)) := by
  rw [sealedMetadata, ← Payload.object_eq]
  refine Json.proper_object fun field hfield => ?_
  simp only [List.mem_cons, List.not_mem_nil, or_false] at hfield
  rcases hfield with rfl | rfl | rfl | rfl
  · trivial
  · trivial
  · exact h
  · trivial

/-- **What a put seals in is what is read out**: the length of the
metadata, the metadata and the content. -/
theorem unframed_eq {record : BronzeObject} {content size : Bytes}
    (hmetadata : Json.Proper P.reader.nearest (.ofPayload record.metadata))
    (hhash : record.contentHash = contentHash content) {now : Instant}
    (hnow : DateTime.Representable now) (hcreated : record.createdAt = .utc now)
    (hsized : sized 8 (written (sealedMetadata record)) = .ok size) :
    unframed record.subjectId record.objectUri record.keyId
        (size ++ written (sealedMetadata record) ++ content) = .ok (record, content) := by
  obtain ⟨hfits, rfl⟩ := sized_eq_ok.1 hsized
  obtain ⟨data, hdata⟩ : ∃ data, data = written (sealedMetadata record) := ⟨_, rfl⟩
  rw [← hdata] at hfits ⊢
  have htwo : 2 ≤ data.length := hdata ▸ two_le_length_written _
  have hsize : ((toBytes 8 data.length ++ data ++ content).take 8) = toBytes 8 data.length := by
    rw [List.append_assoc, List.take_left' (length_toBytes 8 _)]
  have hdrop : (toBytes 8 data.length ++ data ++ content).drop 8 = data ++ content := by
    rw [List.append_assoc, List.drop_left' (length_toBytes 8 _)]
  have htail : (toBytes 8 data.length ++ data ++ content).drop (8 + data.length) = content := by
    rw [← List.drop_drop, hdrop, List.drop_left]
  have hlength : ¬(data.length < 2 ∨
      (toBytes 8 data.length ++ data ++ content).length < 8 + data.length) := by
    simp only [List.length_append, length_toBytes]
    omega
  have hread : readDict data = .ok (sealedMetadata record) := by
    rw [hdata]
    exact readDict_written (proper_sealedMetadata hmetadata)
  have hhashField : (sealedMetadata record)["content_hash"]? = some (.str (contentHash content)) := by
    rw [sealedMetadata, Payload.getElem?_ofFields, ← hhash]
    rfl
  have hmediaField : (sealedMetadata record)["media_type"]? = some (.str record.mediaType) := by
    rw [sealedMetadata, Payload.getElem?_ofFields]
    rfl
  have hkeptField : (sealedMetadata record)["metadata"]? = some (.ofPayload record.metadata) := by
    rw [sealedMetadata, Payload.getElem?_ofFields]
    rfl
  have htimeField : (sealedMetadata record)["created_at"]? =
      some (.str record.createdAt.isoformat) := by
    rw [sealedMetadata, Payload.getElem?_ofFields]
    rfl
  have hkept : TwinState.pyDict (.ofPayload record.metadata) = .ok record.metadata :=
    congrArg Except.ok (Payload.ofFields_toList record.metadata)
  have htime : parseTime record.createdAt.isoformat = .ok record.createdAt := by
    rw [hcreated]
    exact parseTime_utc hnow
  have hmedia : text (sealedMetadata record) "media_type" = .ok record.mediaType := by
    rw [text, hmediaField]
    rfl
  have hcreatedAt : text (sealedMetadata record) "created_at" = .ok record.createdAt.isoformat := by
    rw [text, htimeField]
    rfl
  simp only [unframed, hsize, ofBytes_toBytes hfits, hdrop, htail, if_neg hlength, List.take_left,
    hread, bind, Except.bind, hhashField, ne_eq, not_true_eq_false, if_false, hmedia, hkeptField,
    hkept, hcreatedAt, htime, Except.mapError, pure, Except.pure, ← hhash]

/-! ## What one read rests on -/

/-- A URI that is read is the one of its parts. -/
theorem uri_of_parseUri {objectUri digest objectId : String}
    (h : parseUri objectUri = .ok (digest, objectId)) : objectUri = uri digest objectId := by
  unfold parseUri at h
  dsimp only at h
  split_ifs at h with hstart
  case neg => exact (violated_eq_ok.1 h).elim
  split at h
  case h_2 => exact (violated_eq_ok.1 h).elim
  case h_1 first second hsplit =>
    split_ifs at h with hlong hhex hid <;> try exact (violated_eq_ok.1 h).elim
    obtain ⟨rfl, rfl⟩ := Prod.mk.inj (Except.ok.inj h)
    obtain ⟨rest, hrest⟩ := List.isPrefixOf_iff_prefix.1 hstart
    have hjoined : ['/'].intercalate (rest.splitOn '/') = rest := List.intercalate_splitOn '/'
    rw [← hrest, List.drop_left] at hsplit
    rw [hsplit] at hjoined
    refine String.toList_inj.1 ?_
    rw [← hrest, ← hjoined]
    simp [uri, List.intercalate]

/-- What a read deciphers stands under the header it is routed by. -/
theorem of_routed {keys : KeyProvider} {subjectId digest objectId : String} {envelope : Bytes}
    {found : Ciphered} (h : routed keys subjectId digest objectId envelope = .ok found) :
    ∃ fields, readDict found.aad = .ok fields ∧ fields["object_id"]? = some (.str objectId) ∧
      fields["subject_digest"]? = some (.str digest) ∧ text fields "key_id" = .ok found.keyId := by
  unfold routed at h
  dsimp only at h
  split_ifs at h with hmagic hlength <;> try exact (tampered_eq_ok.1 h).elim
  obtain ⟨fields, hfields, h⟩ := bind_eq_ok.1 h
  split_ifs at h with hrouting
  · exact (tampered_eq_ok.1 h).elim
  obtain ⟨nonce, hnonce, h⟩ := bind_eq_ok.1 h
  split_ifs at h with hshort
  · exact (tampered_eq_ok.1 h).elim
  obtain ⟨keyId, hkeyId, h⟩ := bind_eq_ok.1 h
  obtain ⟨key, hkey, h⟩ := bind_eq_ok.1 h
  obtain rfl := Except.ok.inj h
  push Not at hrouting
  exact ⟨fields, hfields, hrouting.2.1, hrouting.2.2, hkeyId⟩

/-- Nothing is read that the cipher does not let through. -/
theorem of_authenticate {keys : KeyProvider} {subjectId objectUri digest objectId : String}
    {envelope : Bytes} {found : BronzeObject × Bytes}
    (h : authenticate keys subjectId objectUri digest objectId envelope = .ok found) :
    ∃ ciphered plaintext, routed keys subjectId digest objectId envelope = .ok ciphered ∧
      P.decrypt ciphered.key ciphered.nonce ciphered.ciphertext ciphered.aad = some plaintext ∧
      unframed subjectId objectUri ciphered.keyId plaintext = .ok found := by
  obtain ⟨ciphered, hrouted, h⟩ := bind_eq_ok.1 h
  obtain ⟨plaintext, hplaintext, h⟩ := bind_eq_ok.1 h
  unfold decrypt at hplaintext
  split_ifs at hplaintext
  split at hplaintext
  case h_1 => cases hplaintext
  case h_2 opening hopened =>
    obtain rfl := Except.ok.inj hplaintext
    exact ⟨ciphered, opening, hrouted, hopened, h⟩

/-- A message is what a put has sealed of an object. -/
structure SealedFrom (message : Sealed) (found : BronzeObject × Bytes) : Prop where
  routed : ∃ objectId, found.1.objectUri = uri (subjectDigest found.1.subjectId) objectId ∧
    message.aad =
      written (header found.1.keyId message.nonce objectId (subjectDigest found.1.subjectId))
  proper : Json.Proper P.reader.nearest (.ofPayload found.1.metadata)
  hashed : found.1.contentHash = contentHash found.2
  dated : ∃ now, DateTime.Representable now ∧ found.1.createdAt = .utc now
  framed : ∃ size, sized 8 (written (sealedMetadata found.1)) = .ok size ∧
    message.plaintext = size ++ written (sealedMetadata found.1) ++ found.2

/-- **What is read off a sealed message is what it was sealed from**, under
the subject and at the URI it was sealed for. -/
theorem SealedFrom.read {message : Sealed} {stored found : BronzeObject × Bytes}
    (h : SealedFrom message stored) {subjectId objectUri digest objectId keyId : String}
    {fields : Payload} (huri : objectUri = uri digest objectId)
    (hdigest : digest = subjectDigest subjectId)
    (hsubject : subjectDigest stored.1.subjectId = subjectDigest subjectId →
      stored.1.subjectId = subjectId)
    (hfields : readDict message.aad = .ok fields)
    (hobject : fields["object_id"]? = some (.str objectId))
    (hrouted : fields["subject_digest"]? = some (.str digest))
    (hkey : text fields "key_id" = .ok keyId)
    (hread : unframed subjectId objectUri keyId message.plaintext = .ok found) :
    found = stored ∧ stored.1.subjectId = subjectId ∧ stored.1.objectUri = objectUri := by
  obtain ⟨objectId', huri', haad⟩ := h.routed
  rw [haad, readDict_written (proper_header _ _ _ _)] at hfields
  obtain rfl := Except.ok.inj hfields
  have hobject' : (header stored.1.keyId message.nonce objectId'
      (subjectDigest stored.1.subjectId))["object_id"]? = some (.str objectId') := by
    rw [header, Payload.getElem?_ofFields]
    rfl
  have hrouted' : (header stored.1.keyId message.nonce objectId'
      (subjectDigest stored.1.subjectId))["subject_digest"]? =
        some (.str (subjectDigest stored.1.subjectId)) := by
    rw [header, Payload.getElem?_ofFields]
    rfl
  have hkey' : text (header stored.1.keyId message.nonce objectId'
      (subjectDigest stored.1.subjectId)) "key_id" = .ok stored.1.keyId := by
    rw [text, header, Payload.getElem?_ofFields]
    rfl
  obtain rfl : objectId' = objectId := by simpa [hobject'] using hobject
  have hsame : subjectDigest stored.1.subjectId = digest := by simpa [hrouted'] using hrouted
  obtain rfl : stored.1.keyId = keyId := by simpa [hkey'] using hkey
  have hstored : stored.1.subjectId = subjectId := hsubject (hsame.trans hdigest)
  have hat : stored.1.objectUri = objectUri := by rw [huri', huri, hsame]
  obtain ⟨now, hnow, hcreated⟩ := h.dated
  obtain ⟨size, hsized, hplaintext⟩ := h.framed
  rw [hplaintext, ← hstored, ← hat,
    unframed_eq h.proper h.hashed hnow hcreated hsized] at hread
  exact ⟨(Except.ok.inj hread).symm, hstored, hat⟩

end EncryptedFileBronzeVault

end ArgoTwin
