import ArgoTwin.Cursors
/-!
# Cursors over a ring's life

A ring issues cursors and its keys rotate. Of what clients hand back, it
takes what it has issued itself, to the twin it was issued for, with a key
that is still accepted, and binds it to the position it was issued at and no
other; and it takes all of that.
-/

namespace ArgoTwin

open Library

/-- A cursor that was issued: by which key, when and of which position. -/
structure IssuedCursor where
  signer : HmacCursorSigner
  time : Instant
  position : StreamPosition

namespace IssuedCursor

variable [P : CursorPrimitives] (i : IssuedCursor)

def payload : Bytes := i.signer.payload i.time i.position

def token : String := i.signer.issue i.time i.position

theorem payload_ne : i.payload ≠ [] := written_ne_nil _

theorem token_eq : i.token = signedToken i.payload (P.hmac i.signer.key i.payload) := rfl

/-- The cursor as a signer of the same key reads it. -/
def decoded (signer : HmacCursorSigner) : DecodedCursor where
  twinId := i.position.twinId
  sequence := i.position.sequence
  chainTag := i.signer.chainTag i.position
  issuedAt := .utc i.time
  signingKeyId := signer.keyId

end IssuedCursor

namespace RotatingCursorSigner

/-- A ring, and every cursor issued in its life. -/
inductive RingHistory : RotatingCursorSigner → List IssuedCursor → Prop where
  | new (ring : RotatingCursorSigner) : RingHistory ring []
  | issue {ring : RotatingCursorSigner} {issued : List IssuedCursor} (now : Instant)
      (hnow : DateTime.Representable now) (position : StreamPosition)
      (h : RingHistory ring issued) :
      RingHistory ring (issued ++ [⟨ring.active, now, position⟩])
  | rotate {ring ring' : RotatingCursorSigner} {issued : List IssuedCursor}
      (newActive : HmacCursorSigner) (retain : Int) (h : RingHistory ring issued)
      (hrotate : ring.rotate newActive retain = .ok ring') : RingHistory ring' issued

theorem RingHistory.representable {ring : RotatingCursorSigner} {issued : List IssuedCursor}
    (h : RingHistory ring issued) : ∀ i ∈ issued, DateTime.Representable i.time := by
  induction h with
  | new => simp
  | issue now hnow position _ ih =>
    intro i hi
    rcases List.mem_append.1 hi with hi | hi
    · exact ih i hi
    · rw [List.mem_singleton.1 hi]
      exact hnow
  | rotate _ _ _ _ ih => exact ih

/-- The signer of an identifier is found by it. -/
theorem find_signer {ring : RotatingCursorSigner} {signer : HmacCursorSigner}
    (hsigner : signer ∈ ring.signers) :
    ring.signers.find? (fun s => s.keyId = signer.keyId) = some signer := by
  cases hfound : ring.signers.find? fun s => s.keyId = signer.keyId with
  | none =>
    have hnone := List.find?_eq_none.1 hfound signer hsigner
    simp at hnone
  | some found =>
    have hid : found.keyId = signer.keyId := by simpa using List.find?_some hfound
    rw [List.inj_on_of_nodup_map ring.distinct (List.mem_of_find?_eq_some hfound) hsigner hid]

variable [P : CursorPrimitives]

/-- What the keys have signed in that life: cursors, and the tags of their
positions. -/
def SignedBy (issued : List IssuedCursor) (key message : Bytes) : Prop :=
  ∃ i ∈ issued, key = i.signer.key ∧
    (message = i.payload ∨ message = written (chainMaterial i.position))

/-- A token whose signature, if a key of the ring finds it right, was made
with that key. -/
def Unforged (ring : RotatingCursorSigner) (issued : List IssuedCursor) (token : String) : Prop :=
  ∀ signer ∈ ring.signers, ∀ payload, payload ≠ [] →
    token = signedToken payload (P.hmac signer.key payload) → SignedBy issued signer.key payload

/-- No other position has the tag of an issued one. -/
def TagsApart (key : Bytes) (issued position : StreamPosition) : Prop :=
  P.hmac key (written (chainMaterial position)) = P.hmac key (written (chainMaterial issued)) →
    written (chainMaterial position) = written (chainMaterial issued)

section Reading

variable {ring : RotatingCursorSigner} {issued : List IssuedCursor} {i : IssuedCursor}
  {signer : HmacCursorSigner} {now : Instant} {token twinId : String} {cursor : DecodedCursor}

/-- A position is told by what binds it to its chain. -/
theorem position_of_written {position position' : StreamPosition}
    (h : written (chainMaterial position) = written (chainMaterial position')) :
    position = position' := by
  have htext := utf8_inj h
  have hvalue := Json.canonicalJson_inj (proper_chainMaterial position) (proper_chainMaterial position') htext
  rw [Json.ofPayload, Json.ofPayload, Json.obj.injEq] at hvalue
  have hmaterial : chainMaterial position = chainMaterial position' := by
    rw [← Payload.ofFields_toList (chainMaterial position), hvalue, Payload.ofFields_toList]
  have hlookup : ∀ name, List.lookup name
      [("event_hash", Json.str position.eventHash), ("sequence", .int position.sequence),
        ("twin_id", .str position.twinId)] =
      List.lookup name
        [("event_hash", Json.str position'.eventHash), ("sequence", .int position'.sequence),
          ("twin_id", .str position'.twinId)] := by
    intro name
    have hsame := congrArg (fun value : Payload => value[name]?) hmaterial
    simp only [chainMaterial, Payload.getElem?_ofFields] at hsame
    exact hsame
  have htwin : position.twinId = position'.twinId :=
    Json.str.inj (Option.some.inj (hlookup "twin_id"))
  have hsequence : position.sequence = position'.sequence :=
    Json.int.inj (Option.some.inj (hlookup "sequence"))
  have hhash : position.eventHash = position'.eventHash :=
    Json.str.inj (Option.some.inj (hlookup "event_hash"))
  cases position
  cases position'
  simp_all

/-- **A cursor is bound to the position it was issued at**, and to no other
one of another tag. -/
theorem bound_iff (hmac_ne : ∀ key message, P.hmac key message ≠ []) (hsigner : signer ∈ ring.signers)
    (hkey : signer.key = i.signer.key) {position : StreamPosition}
    (hapart : TagsApart signer.key i.position position) :
    (ring.signer now).verifyChainBinding (i.decoded signer) position = .ok position ↔
      position = i.position := by
  have htag : (ring.signer now).chainTag (i.decoded signer).signingKeyId = some signer.chainTag := by
    show (ring.signers.find? fun s => s.keyId = signer.keyId).map (·.chainTag) = _
    rw [find_signer hsigner]
    rfl
  have hsame : (i.decoded signer).chainTag = signer.chainTag i.position := by
    show b64urlEncode (P.hmac i.signer.key _) = b64urlEncode (P.hmac signer.key _)
    rw [hkey]
  rw [CursorSigner.verifyChainBinding, htag]
  dsimp only
  rw [hsame]
  constructor
  · intro h
    split_ifs at h with hother htags
    have hencoded : b64urlEncode (P.hmac signer.key (written (chainMaterial i.position))) =
        b64urlEncode (P.hmac signer.key (written (chainMaterial position))) := not_not.1 htags
    have hread := b64urlDecode_b64urlEncode (hmac_ne signer.key (written (chainMaterial i.position)))
    rw [hencoded, b64urlDecode_b64urlEncode (hmac_ne _ _), Except.ok.injEq] at hread
    exact position_of_written (hapart hread)
  · rintro rfl
    rw [if_neg (by simp [IssuedCursor.decoded]), if_neg (not_not.2 rfl)]

/-- A token of a cursor of the ring's life is read with the first key that
is the one it was signed with. -/
theorem verify_issued (hmac_ne : ∀ key message, P.hmac key message ≠ [])
    (hapart : ∀ s ∈ ring.signers, P.hmac s.key i.payload = P.hmac i.signer.key i.payload →
      s.key = i.signer.key) :
    ring.verify now i.token twinId =
      match ring.signers.find? (fun s => s.key = i.signer.key) with
      | some signer => signer.readMaterial now i.payload twinId
      | none => rejected "resume cursor signature is invalid" := by
  have hmatches : ∀ s ∈ ring.signers,
      s.matchesSignature i.token = decide (s.key = i.signer.key) := by
    intro s hs
    have hiff : s.matchesSignature i.token = true ↔ s.key = i.signer.key := by
      rw [matchesSignature_iff hmac_ne]
      constructor
      · rintro ⟨payload, hne, htoken⟩
        obtain ⟨rfl, hsignature⟩ := signedToken_inj i.payload_ne hne (hmac_ne _ _) (hmac_ne _ _)
          (i.token_eq.symm.trans htoken)
        exact hapart s hs hsignature.symm
      · intro hkey
        refine ⟨i.payload, i.payload_ne, ?_⟩
        rw [hkey]
        exact i.token_eq
    by_cases hkey : s.key = i.signer.key
    · rw [hiff.2 hkey, decide_eq_true hkey]
    · rw [Bool.eq_false_iff.2 fun hmatch => hkey (hiff.1 hmatch), decide_eq_false hkey]
  have hfind : ring.signers.find? (·.matchesSignature i.token) =
      ring.signers.find? fun s => s.key = i.signer.key := List.find?_congr hmatches
  rw [RotatingCursorSigner.verify, hfind]
  cases hfound : ring.signers.find? fun s => s.key = i.signer.key with
  | none => rfl
  | some signer =>
    have hkey : signer.key = i.signer.key := by simpa using List.find?_some hfound
    show signer.verify now i.token twinId = signer.readMaterial now i.payload twinId
    rw [i.token_eq, ← hkey, verify_signedToken hmac_ne i.payload_ne]

/-- **An issued cursor is honoured exactly as long as its key is**: by the
first signer of that key, within its window. -/
theorem honoured_iff_takes (hmac_ne : ∀ key message, P.hmac key message ≠ [])
    (htime : DateTime.Representable i.time)
    (hapart : ∀ s ∈ ring.signers, P.hmac s.key i.payload = P.hmac i.signer.key i.payload →
      s.key = i.signer.key) :
    (∃ cursor, ring.verify now i.token i.position.twinId = .ok cursor ∧
      (ring.signer now).verifyChainBinding cursor i.position = .ok i.position) ↔
    ∃ signer, ring.signers.find? (fun s => s.key = i.signer.key) = some signer ∧
      signer.Takes now i.time := by
  rw [verify_issued hmac_ne hapart]
  cases hfound : ring.signers.find? fun s => s.key = i.signer.key with
  | none => simp
  | some signer =>
    have hkey : signer.key = i.signer.key := by simpa using List.find?_some hfound
    have hsigner := List.mem_of_find?_eq_some hfound
    have hread : ∀ cursor, signer.readMaterial now i.payload i.position.twinId = .ok cursor ↔
        i.position.twinId = i.position.twinId ∧ signer.Takes now i.time ∧
          cursor = i.decoded signer :=
      readMaterial_cursor htime i.position.twinId
    constructor
    · rintro ⟨cursor, hcursor, -⟩
      exact ⟨signer, rfl, ((hread cursor).1 hcursor).2.1⟩
    · rintro ⟨found, hfound, htakes⟩
      obtain rfl := Option.some.inj hfound
      exact ⟨i.decoded signer, (hread _).2 ⟨rfl, htakes, rfl⟩,
        (bound_iff hmac_ne hsigner hkey fun _ => rfl).2 rfl⟩

/-- **Cursors are authentic.** Whatever token a client presents, unless a
signature on it is forged: if the ring takes it for a twin, the ring itself
has issued this very token in its life, of that twin, with a key that is
still accepted and within the window of that key; and it is bound to the
position it was issued at alone. -/
theorem verify_authentic (hmac_ne : ∀ key message, P.hmac key message ≠ [])
    (h : RingHistory ring issued) (hunforged : Unforged ring issued token)
    (hok : ring.verify now token twinId = .ok cursor) :
    ∃ i ∈ issued, token = i.token ∧ i.position.twinId = twinId ∧
      ∃ signer ∈ ring.signers, signer.key = i.signer.key ∧ signer.Takes now i.time ∧
        cursor = i.decoded signer ∧
        ∀ position, TagsApart signer.key i.position position →
          ((ring.signer now).verifyChainBinding cursor position = .ok position ↔
            position = i.position) := by
  unfold verify at hok
  split at hok
  case h_2 => exact (rejected_eq_ok.1 hok).elim
  case h_1 signer hfound =>
    have hsigner := List.mem_of_find?_eq_some hfound
    have hmatch : signer.matchesSignature token = true := by
      simpa using List.find?_some hfound
    obtain ⟨payload, hne, rfl⟩ := (matchesSignature_iff hmac_ne).1 hmatch
    rw [verify_signedToken hmac_ne hne] at hok
    obtain ⟨i, hi, hkey, rfl | rfl⟩ := hunforged signer hsigner payload hne rfl
    · obtain ⟨rfl, htakes, rfl⟩ :=
        (readMaterial_cursor (h.representable i hi) twinId cursor).1 hok
      refine ⟨i, hi, ?_, rfl, signer, hsigner, hkey, htakes, rfl, fun position hapart => ?_⟩
      · rw [hkey]
        exact i.token_eq.symm
      · exact bound_iff hmac_ne hsigner hkey hapart
    · exact absurd hok (readMaterial_chain i.position twinId cursor)

/-- The first ring, rotated once to another key. -/
def rotatedRing : RotatingCursorSigner where
  active := signerOf "k2" 2 (by decide)
  retiring := [firstRing.active]
  bounded := by decide
  distinct := by decide

omit P in
/-- A cursor of the origin of `t` is taken after a rotation that keeps its
key, beside one that the new key has signed. -/
theorem verify_authentic_rotated :
    let _ : CursorPrimitives := checksumCursors
    let i : IssuedCursor := ⟨firstRing.active, 0, Handoff.originOfT⟩
    let later : IssuedCursor := ⟨rotatedRing.active, 4, Handoff.originOfT⟩
    firstRing.rotate rotatedRing.active 1 = .ok rotatedRing ∧
      ∃ cursor, rotatedRing.verify 5 i.token "t" = .ok cursor ∧
        ∃ j ∈ [i, later], i.token = j.token ∧ j.position.twinId = "t" ∧
          ∃ signer ∈ rotatedRing.signers, signer.key = j.signer.key ∧ signer.Takes 5 j.time ∧
            cursor = j.decoded signer ∧
            ∀ position, TagsApart signer.key j.position position →
              ((rotatedRing.signer 5).verifyChainBinding cursor position = .ok position ↔
                position = j.position) := by
  intro primitives i later
  have hmac_ne : ∀ key message, primitives.hmac key message ≠ [] := hmac_ne_checksum
  have hrotate : firstRing.rotate rotatedRing.active 1 = .ok rotatedRing := rfl
  have hhistory : RingHistory rotatedRing [i, later] :=
    .issue 4 (by decide) Handoff.originOfT
      (.rotate rotatedRing.active 1 (.issue 0 (by decide) Handoff.originOfT (.new firstRing)) hrotate)
  have hother : primitives.hmac rotatedRing.active.key i.payload ≠
      primitives.hmac firstRing.active.key i.payload := by
    decide +kernel
  have hunforged : Unforged rotatedRing [i, later] i.token := by
    intro signer hsigner payload hne htoken
    obtain ⟨rfl, hsignature⟩ := signedToken_inj i.payload_ne hne (hmac_ne _ _) (hmac_ne _ _)
      (i.token_eq.symm.trans htoken)
    rcases List.mem_cons.1 hsigner with rfl | hsigner
    · exact absurd hsignature.symm hother
    · obtain rfl := List.mem_singleton.1 hsigner
      exact ⟨i, List.mem_cons_self, rfl, .inl rfl⟩
  have htakes : firstRing.active.Takes 5 i.time := by
    refine ⟨by decide, fun age hage => ?_⟩
    obtain rfl := Option.some.inj hage
    decide
  have hok : rotatedRing.verify 5 i.token "t" = .ok (i.decoded firstRing.active) := by
    rw [verify_issued hmac_ne]
    · exact (readMaterial_cursor (by decide) "t" _).2 ⟨rfl, htakes, rfl⟩
    · intro signer hsigner hsame
      rcases List.mem_cons.1 hsigner with rfl | hsigner
      · exact absurd hsame hother
      · obtain rfl := List.mem_singleton.1 hsigner
        rfl
  exact ⟨hrotate, _, hok, verify_authentic hmac_ne hhistory hunforged hok⟩

end Reading

/-! ## Rotations -/

section Rotations

/-- Rotations in turn. -/
def rotated (ring : RotatingCursorSigner) (rotations : List (HmacCursorSigner × Int)) :
    Except PyError RotatingCursorSigner :=
  rotations.foldlM (fun ring rotation => ring.rotate rotation.1 rotation.2) ring

variable {ring ring' : RotatingCursorSigner} {newActive signer : HmacCursorSigner} {retain : Int}
  {rotations : List (HmacCursorSigner × Int)}

omit P in
theorem signers_inj (h : ring.signers = ring'.signers) : ring = ring' := by
  cases ring
  cases ring'
  obtain ⟨rfl, rfl⟩ := List.cons.inj h
  rfl

omit P in
/-- **A rotation fails for nothing but its count**: the ring stays in its
bound, and its identifiers stay apart. -/
theorem rotate_eq_ok : ring.rotate newActive retain = .ok ring' ↔
    (0 ≤ retain ∧ retain < 8) ∧ ring'.signers =
      newActive :: (ring.signers.filter fun s => s.keyId ≠ newActive.keyId).take retain.toNat := by
  obtain ⟨kept, hkept⟩ : ∃ kept, kept =
      (ring.signers.filter fun s => s.keyId ≠ newActive.keyId).take retain.toNat := ⟨_, rfl⟩
  have hsublist : kept.Sublist (ring.signers.filter fun s => s.keyId ≠ newActive.keyId) :=
    hkept ▸ List.take_sublist _ _
  have hdistinct : ((newActive :: kept).map (·.keyId)).Nodup := by
    rw [List.map_cons, List.nodup_cons]
    refine ⟨fun hmem => ?_, ring.distinct.sublist ((hsublist.trans List.filter_sublist).map _)⟩
    obtain ⟨s, hs, hid⟩ := List.mem_map.1 hmem
    have hother := (List.mem_filter.1 (hsublist.subset hs)).2
    simp [hid] at hother
  rw [rotate, new, ← hkept]
  split_ifs with hcount hbound
  · constructor
    · rintro ⟨⟩
    · rintro ⟨⟨hlow, hhigh⟩, -⟩
      omega
  · rw [Except.ok.injEq]
    constructor
    · rintro rfl
      exact ⟨by omega, rfl⟩
    · rintro ⟨-, hsigners⟩
      exact signers_inj hsigners.symm
  · have hlength : kept.length ≤ retain.toNat := by
      rw [hkept, List.length_take]
      exact Nat.min_le_left _ _
    rw [List.length_cons] at hbound
    omega

omit P in
/-- What a rotation to a fresh identifier keeps: the first of the ring. -/
theorem signers_of_rotate (hfresh : newActive.keyId ∉ ring.signers.map (·.keyId))
    (hrotate : ring.rotate newActive retain = .ok ring') :
    ring'.signers = newActive :: ring.signers.take retain.toNat := by
  have hall : ring.signers.filter (fun s => s.keyId ≠ newActive.keyId) = ring.signers := by
    rw [List.filter_eq_self]
    intro s hs
    have hother : s.keyId ≠ newActive.keyId := fun hid =>
      hfresh (hid ▸ List.mem_map_of_mem hs)
    simpa using hother
  rw [(rotate_eq_ok.1 hrotate).2, hall]

omit P in
/-- Nothing is on a ring but what was on it and what it was rotated to. -/
theorem mem_of_rotated (hrun : ring.rotated rotations = .ok ring') :
    ∀ s ∈ ring'.signers, s ∈ ring.signers ∨ s ∈ rotations.map (·.1) := by
  induction rotations generalizing ring with
  | nil =>
    obtain rfl := Except.ok.inj hrun
    exact fun s hs => .inl hs
  | cons rotation rest ih =>
    obtain ⟨next, hnext, hrest⟩ := bind_eq_ok.1 hrun
    intro s hs
    rcases ih hrest s hs with hmem | hmem
    · rw [(rotate_eq_ok.1 hnext).2] at hmem
      rcases List.mem_cons.1 hmem with rfl | hmem
      · exact .inr List.mem_cons_self
      · exact .inl (List.filter_sublist.subset (List.mem_of_mem_take hmem))
    · exact .inr (List.mem_cons_of_mem _ hmem)

omit P in
/-- **What rotations keep.** A signer stays on the ring exactly as long as
each rotation to a fresh key retains all those before it. -/
theorem accepted_iff (hfresh : ∀ rotation ∈ rotations,
      rotation.1.keyId ∉ ring.signers.map (·.keyId))
    (hnodup : (rotations.map (·.1.keyId)).Nodup) {k : Nat} (hk : ring.signers[k]? = some signer)
    (hrun : ring.rotated rotations = .ok ring') :
    signer ∈ ring'.signers ↔
      ∀ j rotation, rotations[j]? = some rotation → ((k + j : Nat) : Int) < rotation.2 := by
  have hmem : signer ∈ ring.signers := List.mem_of_getElem? hk
  induction rotations generalizing ring k with
  | nil =>
    obtain rfl := Except.ok.inj hrun
    simp [hmem]
  | cons rotation rest ih =>
    obtain ⟨next, hnext, hrest⟩ := bind_eq_ok.1 hrun
    rw [List.map_cons, List.nodup_cons] at hnodup
    have hsigners := signers_of_rotate (hfresh rotation List.mem_cons_self) hnext
    have hfresh' : ∀ later ∈ rest, later.1.keyId ∉ next.signers.map (·.keyId) := by
      intro later hlater hid
      rw [hsigners, List.map_cons, List.mem_cons] at hid
      rcases hid with hid | hid
      · exact hnodup.1 (hid ▸ List.mem_map_of_mem hlater)
      · refine hfresh later (List.mem_cons_of_mem _ hlater) ?_
        exact ((List.take_sublist _ _).map _).subset hid
    by_cases hkept : (k : Int) < rotation.2
    · have hk' : next.signers[k + 1]? = some signer := by
        rw [hsigners, List.getElem?_cons_succ, List.getElem?_take_of_lt (by omega), hk]
      refine (ih hfresh' hnodup.2 hk' hrest (List.mem_of_getElem? hk')).trans ?_
      constructor
      · intro h j later hlater
        cases j with
        | zero =>
          obtain rfl := Option.some.inj hlater
          simpa using hkept
        | succ j =>
          have hbefore := h j later hlater
          omega
      · intro h j later hlater
        have hbefore := h (j + 1) later hlater
        omega
    · constructor
      · intro h
        rcases mem_of_rotated hrest signer h with hnext | hnew
        · rw [hsigners] at hnext
          rcases List.mem_cons.1 hnext with rfl | htaken
          · exact absurd (List.mem_map_of_mem hmem) (hfresh rotation List.mem_cons_self)
          · obtain ⟨m, hm, hat⟩ := List.mem_take_iff_getElem.1 htaken
            obtain ⟨hlt, hget⟩ := List.getElem?_eq_some_iff.1 hk
            have hnodup' : ring.signers.Nodup := ring.distinct.of_map _
            have hsame : m = k := (hnodup'.getElem_inj_iff).1 (hat.trans hget.symm)
            omega
        · obtain ⟨later, hlater, rfl⟩ := List.mem_map.1 hnew
          exact absurd (List.mem_map_of_mem hmem)
            (hfresh later (List.mem_cons_of_mem _ hlater))
      · intro h
        exact absurd (by simpa using h 0 rotation rfl) hkept

/-- **How long a cursor is honoured.** A cursor of a ring is taken, and
bound to its position, after rotations to fresh keys exactly if each of them
has retained more keys than rotations came before it, and the key it was
issued with still takes its age. -/
theorem honoured_after_iff (hmac_ne : ∀ key message, P.hmac key message ≠ [])
    (hrun : ring.rotated rotations = .ok ring')
    (hfresh : ∀ rotation ∈ rotations, rotation.1.keyId ∉ ring.signers.map (·.keyId))
    (hnodup : (rotations.map (·.1.keyId)).Nodup) {issuedAt now : Instant}
    (hissued : DateTime.Representable issuedAt) (position : StreamPosition)
    (hapart : ∀ signer, signer ∈ ring.signers ∨ signer ∈ rotations.map (·.1) →
      P.hmac signer.key (ring.active.payload issuedAt position) =
        P.hmac ring.active.key (ring.active.payload issuedAt position) → signer = ring.active) :
    (∃ cursor, ring'.verify now (ring.active.issue issuedAt position) position.twinId = .ok cursor ∧
      (ring'.signer now).verifyChainBinding cursor position = .ok position) ↔
    (∀ (j : Nat) (rotation : HmacCursorSigner × Int), rotations[j]? = some rotation →
        (j : Int) < rotation.2) ∧
      ring.active.Takes now issuedAt := by
  let i : IssuedCursor := ⟨ring.active, issuedAt, position⟩
  have hothers : ∀ signer ∈ ring'.signers, P.hmac signer.key i.payload =
      P.hmac i.signer.key i.payload → signer = ring.active :=
    fun signer hsigner => hapart signer (mem_of_rotated hrun signer hsigner)
  have hhonoured := @honoured_iff_takes _ ring' i now hmac_ne hissued
    fun signer hsigner hsame => congrArg HmacCursorSigner.key (hothers signer hsigner hsame)
  have haccepted := @accepted_iff ring ring' ring.active rotations hfresh hnodup 0 rfl hrun
  refine hhonoured.trans ?_
  constructor
  · rintro ⟨signer, hfound, htakes⟩
    have hkey : signer.key = ring.active.key := by simpa using List.find?_some hfound
    have hsigner := List.mem_of_find?_eq_some hfound
    obtain rfl := hothers signer hsigner (by rw [hkey])
    refine ⟨fun j rotation hrotation => ?_, htakes⟩
    have hretained := haccepted.1 hsigner j rotation hrotation
    omega
  · rintro ⟨hretained, htakes⟩
    have hactive : ring.active ∈ ring'.signers := by
      refine haccepted.2 fun j rotation hrotation => ?_
      have hbefore := hretained j rotation hrotation
      omega
    refine ⟨ring.active, ?_, htakes⟩
    cases hfound : ring'.signers.find? fun s => s.key = i.signer.key with
    | none =>
      have hnone := List.find?_eq_none.1 hfound ring.active hactive
      simp [i] at hnone
    | some signer =>
      have hkey : signer.key = ring.active.key := by simpa using List.find?_some hfound
      rw [hothers signer (List.mem_of_find?_eq_some hfound) (by rw [hkey])]

omit P in
/-- A cursor of the first ring is honoured after one rotation that retains
its key. -/
theorem honoured_after_iff_first :
    let _ : CursorPrimitives := checksumCursors
    let rotations : List (HmacCursorSigner × Int) := [(signerOf "k2" 2 (by decide), 1)]
    ∃ ring', firstRing.rotated rotations = .ok ring' ∧
      ((∃ cursor, ring'.verify 5 (firstRing.active.issue 0 Handoff.originOfT) "t" = .ok cursor ∧
        (ring'.signer 5).verifyChainBinding cursor Handoff.originOfT = .ok Handoff.originOfT) ↔
      (∀ (j : Nat) (rotation : HmacCursorSigner × Int), rotations[j]? = some rotation →
          (j : Int) < rotation.2) ∧
        firstRing.active.Takes 5 0) := by
  intro primitives rotations
  have hmac_ne : ∀ key message, primitives.hmac key message ≠ [] := hmac_ne_checksum
  have hrun : ∃ ring', firstRing.rotated rotations = .ok ring' := by decide +kernel
  obtain ⟨ring', hrun⟩ := hrun
  refine ⟨ring', hrun, honoured_after_iff hmac_ne hrun ?_ ?_ (by decide) Handoff.originOfT ?_⟩
  · decide +kernel
  · decide +kernel
  · have hother : primitives.hmac (signerOf "k2" 2 (by decide)).key
        (firstRing.active.payload 0 Handoff.originOfT) ≠
        primitives.hmac firstRing.active.key (firstRing.active.payload 0 Handoff.originOfT) := by
      decide +kernel
    rintro signer (hsigner | hsigner) hsame
    · exact List.mem_singleton.1 hsigner
    · obtain rfl : signer = signerOf "k2" 2 (by decide) := List.mem_singleton.1 hsigner
      exact absurd hsame hother

end Rotations

end RotatingCursorSigner

end ArgoTwin
