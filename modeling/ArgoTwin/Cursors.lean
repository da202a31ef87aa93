import ArgoTwin.Documents
import ArgoTwin.Library.Base64
import ArgoTwin.Nats
import ArgoTwin.StateStreams
import ArgoTwin.TimeText
/-!
# Resume cursors

A cursor is a position of a stream, dated and signed: what a client hands
back is read only if the key it was signed with is still on the ring. Keys
rotate: a ring issues with one and accepts a few.
-/

namespace ArgoTwin

open Library

/-- What cursors rest on: HMAC-SHA256 of a key and a message. -/
class CursorPrimitives extends JsonDecoder where
  hmac : Bytes → Bytes → Bytes

/-- A checksum of the key and the message in the place of HMAC, for runs on
fixed inputs. -/
@[reducible] def checksumCursors : CursorPrimitives where
  hmac key message :=
    toBytes 32 ((key ++ message).foldl (fun n byte => (n * 257 + byte.toNat) % 256 ^ 32) 7)
  reader := { nearest := some }
  foreign _ := .error (.valueError "not UTF-8")

theorem hmac_ne_checksum (key message : Bytes) : checksumCursors.hmac key message ≠ [] := by
  intro hempty
  have hlength := length_toBytes 32
    ((key ++ message).foldl (fun n byte => (n * 257 + byte.toNat) % 256 ^ 32) 7)
  rw [show toBytes 32 _ = [] from hempty] at hlength
  cases hlength

/-! ## Bytes in a URL -/

def rejected {α : Type} (message : String) : Except PyError α :=
  .error (.resumeCursorRejected message)

@[simp] theorem rejected_eq_ok {α : Type} {message : String} {a : α} :
    rejected message = .ok a ↔ False := by
  simp [rejected]

def toUrlSafe (c : Char) : Char := if c = '+' then '-' else if c = '/' then '_' else c

def fromUrlSafe (c : Char) : Char := if c = '-' then '+' else if c = '_' then '/' else c

/-- `_b64url_encode`. -/
def b64urlEncode (value : Bytes) : String :=
  String.ofList (((Alphabet.standard.encode value).map toUrlSafe).rdropWhile (· = '='))

/-- `_b64url_decode`. -/
def b64urlDecode (value : String) : Except PyError Bytes :=
  if value = "" ∨ '=' ∈ value.toList then rejected "resume cursor encoding is invalid"
  else
    let padding := List.replicate ((4 - value.toList.length % 4) % 4) '='
    match Alphabet.standard.decode ((value.toList ++ padding).map fromUrlSafe) with
    | none => rejected "resume cursor encoding is invalid"
    | some decoded =>
      if b64urlEncode decoded ≠ value then rejected "resume cursor encoding is not canonical"
      else .ok decoded

/-- What holds of the digits one by one. -/
theorem forall_digits {p : Char → Prop} [DecidablePred p]
    (h : (Alphabet.standard.digits.all fun c => decide (p c)) = true) :
    ∀ c ∈ Alphabet.standard.digits, p c :=
  fun c hc => of_decide_eq_true (List.all_eq_true.1 h c hc)

theorem fromUrlSafe_toUrlSafe {c : Char} (h : c ∈ Alphabet.standard.digits ∨ c = '=') :
    fromUrlSafe (toUrlSafe c) = c := by
  have hall : ∀ c ∈ Alphabet.standard.digits, fromUrlSafe (toUrlSafe c) = c :=
    forall_digits (by decide +kernel)
  rcases h with h | rfl
  · exact hall c h
  · rfl

/-- What bytes are encoded as: digits that are safe in a URL. -/
theorem toList_b64urlEncode (value : Bytes) : ∃ digits pad,
    Alphabet.standard.encode value = digits ++ List.replicate pad '=' ∧
      (∀ c ∈ digits, c ∈ Alphabet.standard.digits) ∧ pad = (4 - digits.length % 4) % 4 ∧
      (value ≠ [] → digits ≠ []) ∧ (b64urlEncode value).toList = digits.map toUrlSafe := by
  obtain ⟨digits, pad, hencode, hdigits, hpad, hlength, hnonempty⟩ :=
    Alphabet.standard.encode_eq value
  refine ⟨digits, pad, hencode, hdigits, by omega, hnonempty, ?_⟩
  have hfree : ∀ c ∈ Alphabet.standard.digits, toUrlSafe c ≠ '=' :=
    forall_digits (by decide +kernel)
  have hpadded : ∀ n, (digits.map toUrlSafe ++ List.replicate n '=').rdropWhile
      (fun c => decide (c = '=')) = (digits.map toUrlSafe).rdropWhile fun c => decide (c = '=') := by
    intro n
    induction n with
    | zero => rw [List.replicate_zero, List.append_nil]
    | succ n ih =>
      rw [List.replicate_succ', ← List.append_assoc, List.rdropWhile_concat_pos _ _ _ (by simp), ih]
  have hkept : (digits.map toUrlSafe).rdropWhile (fun c => decide (c = '=')) =
      digits.map toUrlSafe := by
    rw [List.rdropWhile_eq_self_iff]
    intro hne
    obtain ⟨c, hc, heq⟩ := List.mem_map.1 (List.getLast_mem hne)
    rw [← heq]
    simpa using hfree c (hdigits c hc)
  have hpadding : toUrlSafe '=' = '=' := rfl
  rw [b64urlEncode, String.toList_ofList, hencode, List.map_append, List.map_replicate, hpadding,
    hpadded, hkept]

/-- **Bytes are read off what they were encoded as.** -/
theorem b64urlDecode_b64urlEncode {value : Bytes} (h : value ≠ []) :
    b64urlDecode (b64urlEncode value) = .ok value := by
  obtain ⟨digits, pad, hencode, hdigits, hpad, hnonempty, htext⟩ := toList_b64urlEncode value
  have hfree : ∀ c ∈ Alphabet.standard.digits, toUrlSafe c ≠ '=' :=
    forall_digits (by decide +kernel)
  have hstart : ¬(b64urlEncode value = "" ∨ '=' ∈ (b64urlEncode value).toList) := by
    rw [htext, List.mem_map]
    rintro (hempty | ⟨c, hc, heq⟩)
    · rw [← String.toList_inj, htext] at hempty
      exact hnonempty h (List.map_eq_nil_iff.1 hempty)
    · exact hfree c (hdigits c hc) heq
  have hback : digits.map (fromUrlSafe ∘ toUrlSafe) = digits := by
    refine (List.map_congr_left fun c hc => ?_).trans (List.map_id digits)
    exact fromUrlSafe_toUrlSafe (.inl (hdigits c hc))
  have hread : ((b64urlEncode value).toList ++ List.replicate pad '=').map fromUrlSafe =
      Alphabet.standard.encode value := by
    rw [htext, List.map_append, List.map_map, hback, List.map_replicate, hencode]
    rfl
  have hsize : (4 - (b64urlEncode value).toList.length % 4) % 4 = pad := by
    rw [htext, List.length_map, hpad]
  rw [b64urlDecode, if_neg hstart]
  dsimp only
  rw [hsize, hread, Alphabet.decode_encode]
  simp

/-- **Nothing else is read as these bytes.** -/
theorem eq_of_b64urlDecode {text : String} {value : Bytes} (h : b64urlDecode text = .ok value) :
    text = b64urlEncode value := by
  unfold b64urlDecode at h
  dsimp only at h
  split_ifs at h with hstart
  · exact (rejected_eq_ok.1 h).elim
  · split at h
    · exact (rejected_eq_ok.1 h).elim
    · split_ifs at h with hcanonical
      · exact (rejected_eq_ok.1 h).elim
      · obtain rfl := Except.ok.inj h
        exact (not_not.1 hcanonical).symm

/-! ## One key -/

/-- `CursorSigner`: a key, how old a cursor may be and how far the clock may
be off, in microseconds. -/
structure HmacCursorSigner where
  key : Bytes
  keyId : String := "default"
  maxAge : Option Int := some (7 * 86400 * 1000000)
  allowedClockSkew : Int := 60 * 1000000
  length_key : 32 ≤ key.length
  keyId_token : NatsSubjectTopology.isToken keyId = true
  age_positive : ∀ age, maxAge = some age → 0 < age
  skew_nonneg : 0 ≤ allowedClockSkew

def signerOf (keyId : String) (byte : UInt8) (h : NatsSubjectTopology.isToken keyId = true) :
    HmacCursorSigner where
  key := List.replicate 32 byte
  keyId := keyId
  length_key := by simp
  keyId_token := h
  age_positive := by
    rintro age hage
    obtain rfl := Option.some.inj hage
    decide
  skew_nonneg := by decide

/-- `token.split(".")`, of two parts. -/
def tokenParts (token : String) : Option (String × String) :=
  match token.toList.splitOn '.' with
  | [payload, signature] => some (String.ofList payload, String.ofList signature)
  | _ => none

/-- What a position is bound to its chain by. -/
def chainMaterial (position : StreamPosition) : Payload :=
  .ofFields
    [("twin_id", .str position.twinId), ("sequence", .int position.sequence),
      ("event_hash", .str position.eventHash)]

/-- What a cursor says. -/
def cursorMaterial (twinId : String) (sequence : Int) (chainTag : String) (issuedAt : Instant) :
    Payload :=
  .ofFields
    [("schema_version", .str "argo.dt.cursor/v1"), ("twin_id", .str twinId),
      ("sequence", .int sequence), ("chain_tag", .str chainTag),
      ("issued_at", .str (DateTime.utc issuedAt).toPrimitive)]

/-- `set(value) == keys`. -/
def hasKeys (value : Payload) (keys : List String) : Bool :=
  keys.all (fun key => value[key]?.isSome) && value.toList.all fun field => keys.contains field.1

namespace HmacCursorSigner

variable [P : CursorPrimitives] (signer : HmacCursorSigner)

/-- `_chain_tag`. -/
def chainTag (position : StreamPosition) : String :=
  b64urlEncode (P.hmac signer.key (written (chainMaterial position)))

/-- What `issue` signs. -/
def payload (now : Instant) (position : StreamPosition) : Bytes :=
  written (cursorMaterial position.twinId position.sequence (signer.chainTag position) now)

/-- `issue`. -/
def issue (now : Instant) (position : StreamPosition) : String :=
  b64urlEncode (signer.payload now position) ++ "." ++
    b64urlEncode (P.hmac signer.key (signer.payload now position))

/-- What is read off a payload that was signed. -/
def readMaterial (now : Instant) (payload : Bytes) (twinId : String) :
    Except PyError DecodedCursor :=
  match readJson payload with
  | .error (.valueError _) => rejected "resume cursor payload is invalid"
  | .error e => .error e
  | .ok (.obj fields) =>
    let material := Payload.ofFields fields
    if !hasKeys material ["schema_version", "twin_id", "sequence", "chain_tag", "issued_at"] then
      rejected "resume cursor payload shape is invalid"
    else if material["schema_version"]? ≠ some (.str "argo.dt.cursor/v1") then
      rejected "resume cursor version is unsupported"
    else if material["twin_id"]? ≠ some (.str twinId) then
      rejected "resume cursor is bound to another twin"
    else
      match material["sequence"]? with
      | some (.int sequence) =>
        match material["chain_tag"]? with
        | some (.str chainTag) =>
          match material["issued_at"]? with
          | some (.str issuedAt) =>
            match parseTime issuedAt with
            | .error _ => rejected "resume cursor issued_at is invalid"
            | .ok issuedAt =>
              if now + signer.allowedClockSkew < issuedAt.instant then
                rejected "resume cursor was issued in the future"
              else if signer.maxAge.any fun age => age < now - issuedAt.instant then
                rejected "resume cursor has expired"
              else
                .ok
                  { twinId := twinId, sequence := sequence, chainTag := chainTag,
                    issuedAt := issuedAt, signingKeyId := signer.keyId }
          | _ => rejected "resume cursor issued_at is invalid"
        | _ => rejected "resume cursor chain tag is invalid"
      | _ => rejected "resume cursor sequence is invalid"
  | .ok _ => rejected "resume cursor payload shape is invalid"

/-- `verify`. -/
def verify (now : Instant) (token twinId : String) : Except PyError DecodedCursor :=
  match tokenParts token with
  | none => rejected "resume cursor structure is invalid"
  | some (first, second) => do
    let payload ← b64urlDecode first
    let supplied ← b64urlDecode second
    if supplied ≠ P.hmac signer.key payload then rejected "resume cursor signature is invalid"
    else signer.readMaterial now payload twinId

/-- `matches_signature`. -/
def matchesSignature (token : String) : Bool :=
  match tokenParts token with
  | none => false
  | some (first, second) =>
    match b64urlDecode first, b64urlDecode second with
    | .ok payload, .ok supplied => supplied = P.hmac signer.key payload
    | _, _ => false

end HmacCursorSigner

/-! ## A ring of keys -/

/-- `RotatingCursorSigner`. -/
structure RotatingCursorSigner where
  active : HmacCursorSigner
  retiring : List HmacCursorSigner
  bounded : (active :: retiring).length ≤ 8
  distinct : ((active :: retiring).map (·.keyId)).Nodup

namespace RotatingCursorSigner

/-- The constructor, with its checks. -/
def new (active : HmacCursorSigner) (retiring : List HmacCursorSigner) :
    Except PyError RotatingCursorSigner :=
  if hbound : (active :: retiring).length ≤ 8 then
    if hdistinct : ((active :: retiring).map (·.keyId)).Nodup then
      .ok ⟨active, retiring, hbound, hdistinct⟩
    else .error (.valueError "cursor key IDs must be unique")
  else .error (.valueError "cursor key ring cannot exceed 8 keys")

/-- A ring of one key. -/
def firstRing : RotatingCursorSigner where
  active := signerOf "k1" 1 (by decide)
  retiring := []
  bounded := by decide
  distinct := by decide

/-- `_verification_order`. -/
def signers (ring : RotatingCursorSigner) : List HmacCursorSigner := ring.active :: ring.retiring

/-- `rotate`. -/
def rotate (ring : RotatingCursorSigner) (newActive : HmacCursorSigner) (retain : Int) :
    Except PyError RotatingCursorSigner :=
  if retain < 0 ∨ 8 ≤ retain then .error (.valueError "retain must be in [0, 7]")
  else
    new newActive ((ring.signers.filter fun s => s.keyId ≠ newActive.keyId).take retain.toNat)

variable [P : CursorPrimitives]

/-- `verify`. -/
def verify (ring : RotatingCursorSigner) (now : Instant) (token twinId : String) :
    Except PyError DecodedCursor :=
  match ring.signers.find? (·.matchesSignature token) with
  | some signer => signer.verify now token twinId
  | none => rejected "resume cursor signature is invalid"

/-- The ring as streams use it at one time. -/
def signer (ring : RotatingCursorSigner) (now : Instant) : CursorSigner where
  issue := ring.active.issue now
  verify := ring.verify now
  chainTag keyId := (ring.signers.find? fun s => s.keyId = keyId).map (·.chainTag)

end RotatingCursorSigner

/-! ## Tokens -/

theorem dot_free (value : Bytes) : '.' ∉ (b64urlEncode value).toList := by
  obtain ⟨digits, pad, -, hdigits, -, -, htext⟩ := toList_b64urlEncode value
  have hfree : ∀ c ∈ Alphabet.standard.digits, toUrlSafe c ≠ '.' :=
    forall_digits (by decide +kernel)
  rw [htext, List.mem_map]
  rintro ⟨c, hc, heq⟩
  exact hfree c (hdigits c hc) heq

theorem tokenParts_append {first second : String} (hfirst : '.' ∉ first.toList)
    (hsecond : '.' ∉ second.toList) : tokenParts (first ++ "." ++ second) = some (first, second) := by
  have hjoined : (['.'].intercalate [first.toList, second.toList]).splitOn '.' =
      [first.toList, second.toList] := List.splitOn_intercalate '.'
    (by simp [hfirst, hsecond]) (by simp)
  have hsplit : (first ++ "." ++ second).toList.splitOn '.' = [first.toList, second.toList] := by
    simpa [List.intercalate] using hjoined
  simp only [tokenParts, hsplit, String.ofList_toList]

theorem eq_of_tokenParts {token first second : String} (h : tokenParts token = some (first, second)) :
    token = first ++ "." ++ second := by
  unfold tokenParts at h
  split at h
  case h_2 => cases h
  case h_1 left right hsplit =>
    obtain ⟨rfl, rfl⟩ := Prod.mk.inj (Option.some.inj h)
    have hjoined : ['.'].intercalate (token.toList.splitOn '.') = token.toList :=
      List.intercalate_splitOn '.'
    rw [hsplit] at hjoined
    refine String.toList_inj.1 ?_
    rw [← hjoined]
    simp [List.intercalate]

/-- Bytes and their signature, as they are handed out. -/
def signedToken (payload signature : Bytes) : String :=
  b64urlEncode payload ++ "." ++ b64urlEncode signature

theorem signedToken_inj {payload payload' signature signature' : Bytes} (hp : payload ≠ [])
    (hp' : payload' ≠ []) (hs : signature ≠ []) (hs' : signature' ≠ [])
    (h : signedToken payload signature = signedToken payload' signature') :
    payload = payload' ∧ signature = signature' := by
  have hparts := tokenParts_append (dot_free payload) (dot_free signature)
  have hparts' := tokenParts_append (dot_free payload') (dot_free signature')
  rw [← signedToken] at hparts hparts'
  rw [h, hparts', Option.some.injEq, Prod.mk.injEq] at hparts
  have hread := b64urlDecode_b64urlEncode hp
  have hread' := b64urlDecode_b64urlEncode hs
  rw [← hparts.1, b64urlDecode_b64urlEncode hp', Except.ok.injEq] at hread
  rw [← hparts.2, b64urlDecode_b64urlEncode hs', Except.ok.injEq] at hread'
  exact ⟨hread.symm, hread'.symm⟩

theorem written_ne_nil (value : Payload) : written value ≠ [] := by
  intro hempty
  have htwo := two_le_length_written value
  rw [hempty] at htwo
  exact absurd htwo (by decide)

section Signer

variable [P : CursorPrimitives] {signer : HmacCursorSigner} {token : String}

/-- **What a signature is found on**: a token of some bytes that the key
has signed, and of no other form. -/
theorem matchesSignature_iff (hmac_ne : ∀ key message, P.hmac key message ≠ []) :
    signer.matchesSignature token = true ↔
      ∃ payload, payload ≠ [] ∧ token = signedToken payload (P.hmac signer.key payload) := by
  constructor
  · intro h
    unfold HmacCursorSigner.matchesSignature at h
    split at h
    case h_1 => cases h
    case h_2 first second hparts =>
      split at h
      case h_2 => cases h
      case h_1 payload supplied hpayload hsupplied =>
        have hsame : supplied = P.hmac signer.key payload := by simpa using h
        refine ⟨payload, ?_, ?_⟩
        · rintro rfl
          have hempty : first = "" := eq_of_b64urlDecode hpayload
          rw [hempty] at hpayload
          exact rejected_eq_ok.1 hpayload
        · rw [eq_of_tokenParts hparts, eq_of_b64urlDecode hpayload, eq_of_b64urlDecode hsupplied,
            hsame, signedToken]
  · rintro ⟨payload, hne, rfl⟩
    rw [HmacCursorSigner.matchesSignature, signedToken,
      tokenParts_append (dot_free _) (dot_free _)]
    simp only [b64urlDecode_b64urlEncode hne, b64urlDecode_b64urlEncode (hmac_ne _ _), decide_true]

/-- A token the key has signed is read as what was signed. -/
theorem verify_signedToken (hmac_ne : ∀ key message, P.hmac key message ≠ []) {payload : Bytes}
    (hne : payload ≠ []) (now : Instant) (twinId : String) :
    signer.verify now (signedToken payload (P.hmac signer.key payload)) twinId =
      signer.readMaterial now payload twinId := by
  rw [HmacCursorSigner.verify, signedToken, tokenParts_append (dot_free _) (dot_free _)]
  simp only [b64urlDecode_b64urlEncode hne, b64urlDecode_b64urlEncode (hmac_ne _ _), ok_bind,
    ne_eq, not_true_eq_false, if_false]

end Signer

/-! ## What a signed payload says -/

theorem hasKeys_iff {value : Payload} {keys : List String} :
    hasKeys value keys = true ↔ ∀ key, key ∈ value ↔ key ∈ keys := by
  have hmem : ∀ key, key ∈ value ↔ key ∈ value.toList.map (·.1) := by
    intro key
    rw [mem_iff_getElem?, List.mem_map]
    constructor
    · rintro ⟨found, hfound⟩
      exact ⟨(key, found), mem_dict_toList.2 hfound, rfl⟩
    · rintro ⟨⟨name, found⟩, hfield, rfl⟩
      exact ⟨found, mem_dict_toList.1 hfield⟩
  rw [hasKeys, Bool.and_eq_true, List.all_eq_true, List.all_eq_true]
  constructor
  · rintro ⟨hall, honly⟩ key
    refine ⟨fun hkey => ?_, fun hkey => ?_⟩
    · obtain ⟨field, hfield, rfl⟩ := List.mem_map.1 ((hmem key).1 hkey)
      exact List.contains_iff_mem.1 (honly field hfield)
    · exact mem_iff_getElem?.2 (Option.isSome_iff_exists.1 (hall key hkey))
  · intro h
    refine ⟨fun key hkey => ?_, fun field hfield => ?_⟩
    · exact Option.isSome_iff_exists.2 (mem_iff_getElem?.1 ((h key).2 hkey))
    · exact List.contains_iff_mem.2
        ((h field.1).1 ((hmem field.1).2 (List.mem_map_of_mem hfield)))

section Reading

variable [P : CursorPrimitives] {signer : HmacCursorSigner} {now issuedAt : Instant}
  {twinId chainTag : String} {sequence : Int}

/-- A signer takes cursors that are neither from the future nor too old. -/
def HmacCursorSigner.Takes (signer : HmacCursorSigner) (now issuedAt : Instant) : Prop :=
  issuedAt ≤ now + signer.allowedClockSkew ∧
    ∀ age, signer.maxAge = some age → now - issuedAt ≤ age

theorem proper_cursorMaterial :
    Json.Proper P.reader.nearest
      (.ofPayload (cursorMaterial twinId sequence chainTag issuedAt)) := by
  rw [cursorMaterial, ← Payload.object_eq]
  refine Json.proper_object fun field hfield => ?_
  simp only [List.mem_cons, List.not_mem_nil, or_false] at hfield
  rcases hfield with rfl | rfl | rfl | rfl | rfl <;> trivial

theorem proper_chainMaterial (position : StreamPosition) :
    Json.Proper P.reader.nearest (.ofPayload (chainMaterial position)) := by
  rw [chainMaterial, ← Payload.object_eq]
  refine Json.proper_object fun field hfield => ?_
  simp only [List.mem_cons, List.not_mem_nil, or_false] at hfield
  rcases hfield with rfl | rfl | rfl <;> trivial

/-- **A cursor is read as it was written**, by the twin it is of, as long as
the signer takes it. -/
theorem readMaterial_cursor (hissued : DateTime.Representable issuedAt) (asked : String)
    (cursor : DecodedCursor) :
    signer.readMaterial now (written (cursorMaterial twinId sequence chainTag issuedAt)) asked =
        .ok cursor ↔
      asked = twinId ∧ signer.Takes now issuedAt ∧
        cursor = ⟨twinId, sequence, chainTag, .utc issuedAt, signer.keyId⟩ := by
  obtain ⟨material, hmaterial⟩ :
      ∃ material, material = cursorMaterial twinId sequence chainTag issuedAt := ⟨_, rfl⟩
  have hlookup : ∀ name, material[name]? = List.lookup name
      [("issued_at", .str (DateTime.utc issuedAt).toPrimitive), ("chain_tag", .str chainTag),
        ("sequence", .int sequence), ("twin_id", .str twinId),
        ("schema_version", .str "argo.dt.cursor/v1")] := by
    intro name
    rw [hmaterial, cursorMaterial, Payload.getElem?_ofFields]
    rfl
  have hread : readJson (written material) = .ok (.obj material.toList) := by
    rw [hmaterial]
    exact readJson_written proper_cursorMaterial
  have hkeys : hasKeys material
      ["schema_version", "twin_id", "sequence", "chain_tag", "issued_at"] = true := by
    rw [hasKeys_iff]
    intro key
    rw [hmaterial, cursorMaterial, Payload.mem_ofFields]
    rfl
  have hversion : material["schema_version"]? = some (.str "argo.dt.cursor/v1") := hlookup _
  have htwin : material["twin_id"]? = some (.str twinId) := hlookup _
  have hsequence : material["sequence"]? = some (.int sequence) := hlookup _
  have htag : material["chain_tag"]? = some (.str chainTag) := hlookup _
  have htime : material["issued_at"]? = some (.str (DateTime.utc issuedAt).toPrimitive) := hlookup _
  have hparse : parseTime (DateTime.utc issuedAt).toPrimitive = .ok (.utc issuedAt) := by
    have h := parseTime_toPrimitive (d := .utc issuedAt) (by rwa [DateTime.instant_utc])
    rwa [DateTime.astimezoneUtc_utc] at h
  rw [← hmaterial]
  simp only [HmacCursorSigner.readMaterial, hread, Payload.ofFields_toList, hkeys, hversion, htwin,
    hsequence, htag, htime, hparse, DateTime.instant_utc, Bool.not_true, Bool.false_eq_true,
    if_false, ne_eq, not_true_eq_false, Option.some.injEq, Json.str.injEq]
  have hfuture : ¬ now + signer.allowedClockSkew < issuedAt ↔
      issuedAt ≤ now + signer.allowedClockSkew := Int.not_lt
  have hold : ¬ (signer.maxAge.any fun age => decide (age < now - issuedAt)) = true ↔
      ∀ age, signer.maxAge = some age → now - issuedAt ≤ age := by
    cases signer.maxAge with
    | none => simp
    | some age => simp
  unfold HmacCursorSigner.Takes
  rw [← hfuture, ← hold]
  by_cases hasked : twinId = asked
  · rw [if_neg (not_not.2 hasked)]
    split_ifs with hlate hexpired
    · simp [hlate]
    · simp [hexpired]
    · rw [Except.ok.injEq]
      simp [hasked, hlate, hexpired, eq_comm]
  · rw [if_pos hasked]
    simp [Ne.symm hasked]

/-- What binds a position to its chain is no cursor. -/
theorem readMaterial_chain (position : StreamPosition) (asked : String) (cursor : DecodedCursor) :
    signer.readMaterial now (written (chainMaterial position)) asked ≠ .ok cursor := by
  obtain ⟨material, hmaterial⟩ : ∃ material, material = chainMaterial position := ⟨_, rfl⟩
  have hread : readJson (written material) = .ok (.obj material.toList) := by
    rw [hmaterial]
    exact readJson_written (proper_chainMaterial position)
  have hkeys : hasKeys material
      ["schema_version", "twin_id", "sequence", "chain_tag", "issued_at"] = false := by
    rw [Bool.eq_false_iff, ne_eq, hasKeys_iff]
    intro hall
    have hversion := (hall "schema_version").2 (by decide)
    rw [hmaterial, chainMaterial, Payload.mem_ofFields] at hversion
    exact absurd hversion (by simp)
  rw [← hmaterial]
  simp only [HmacCursorSigner.readMaterial, hread, Payload.ofFields_toList, hkeys, Bool.not_false,
    if_true, ne_eq, rejected_eq_ok, not_false_eq_true]

end Reading

end ArgoTwin
