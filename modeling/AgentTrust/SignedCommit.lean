import AgentTrust.Verifier
import AgentTrust.ProofHash

/-! The signature of a commit. The Exchange signs a message that ends with the
cataloging time in RFC 3339 form; the client rebuilds the message from the decoded
commit. What the rebuilt message binds is read off its fields from both ends. -/

namespace AgentTrust.SignedCommit

open JsonTree JsonTree.Json TextCode PyText PyJson Gregorian PyDateTime IsoFormat OrderedDict
  PyValue Sha256 Models Hashing Effects Exchange Client ProofHash

section Cataloging

/-- The cataloging time as the Exchange writes it: nanoseconds without trailing zeros
and `Z`. `extra` are the nanoseconds below the microseconds of `w`. -/
def rfc3339Nano (w : Wall) (extra : Fin 1000) : Text :=
  let nanos := w.time.microsecond.val * 1000 + extra.val
  secondsText w ++
    ((if nanos = 0 then [] else '.' :: (zfill 9 nanos).rdropWhile (· = '0')) ++ ['Z'])

theorem fromisoformat_rfc3339Nano (w : Wall) (extra : Fin 1000) :
    fromisoformat (raw (rfc3339Nano w extra)) = some (utcAt w) := by
  have micro := w.time.microsecond.isLt
  have below := extra.isLt
  rw [rfc3339Nano]
  split
  · next zero =>
    refine fromisoformat_zulu w (f := []) (b := true) (by simp) ?_
    have whole : w.time.microsecond.val = 0 := by omega
    rw [whole]
    rfl
  · next nonzero =>
    have size : w.time.microsecond.val * 1000 + extra.val < 10 ^ (6 + 3) := by
      simp only [Nat.reduceAdd, Nat.reducePow]
      omega
    have fraction := parseTail_stripped 'Z' (k := 3) size nonzero
    have value : (w.time.microsecond.val * 1000 + extra.val) / 10 ^ 3 = w.time.microsecond.val := by
      omega
    rw [value] at fraction
    refine fromisoformat_zulu w ?_ fraction
    rw [List.forall_mem_cons]
    exact ⟨rfl, stripped_chars 9 _⟩

theorem isoformat_ne_rfc3339Nano (v w : Wall) (extra : Fin 1000) :
    isoformat (utcAt v) ≠ rfc3339Nano w extra := by
  intro same
  have last := congrArg List.getLast? same
  simp [isoformat_utcAt, rfc3339Nano, ← List.append_assoc] at last

end Cataloging

section Acceptance

variable {sig : SignatureLib} {key : Option Text}

def SignatureLib.OneMessage (sig : SignatureLib) : Prop :=
  ∀ key m n signature, sig.verify key m signature = .ok () → sig.verify key n signature = .ok () →
    m = n

theorem checkSignature_eq_ok {signature m : PyStr} :
    checkSignature sig signature key m = .ok () ↔
      ∃ bytes pubkey t, sig.b58decode signature = .ok bytes ∧
        publicKeyBytes sig key = .ok pubkey ∧ pubkey ≠ [] ∧ encode m = some t ∧
        sig.verify pubkey (utf8 t) bytes = .ok () := by
  simp only [checkSignature, bind_eq_ok]
  constructor
  · rintro ⟨bytes, hbytes, pubkey, hpubkey, check⟩
    split at check
    · simp at check
    · next present =>
      obtain ⟨t, encoded, check⟩ := bind_eq_ok.mp check
      exact ⟨bytes, pubkey, t, hbytes, hpubkey, present, valid_eq_ok.mp encoded, check⟩
  · rintro ⟨bytes, pubkey, t, hbytes, hpubkey, present, encoded, check⟩
    refine ⟨bytes, hbytes, pubkey, hpubkey, ?_⟩
    rw [if_neg present]
    exact bind_eq_ok.mpr ⟨t, valid_eq_ok.mpr encoded, check⟩

theorem checkSignature_message_eq (one : SignatureLib.OneMessage sig) {signature m n : PyStr}
    (hm : checkSignature sig signature key m = .ok ())
    (hn : checkSignature sig signature key n = .ok ()) : m = n := by
  obtain ⟨bytes, pubkey, s, hbytes, hpubkey, _, encm, hm⟩ := checkSignature_eq_ok.mp hm
  obtain ⟨bytes', pubkey', t, hbytes', hpubkey', _, encn, hn⟩ := checkSignature_eq_ok.mp hn
  obtain rfl := Except.ok.inj (hbytes.symm.trans hbytes')
  obtain rfl := Except.ok.inj (hpubkey.symm.trans hpubkey')
  have same : s = t := utf8_injective (one _ _ _ _ hm hn)
  rw [← raw_of_encode encm, ← raw_of_encode encn, same]

theorem verifySignature_eq_true {commit : Commit} :
    verifySignature sig commit key = .ok true ↔
      ∃ signature catalogedAt proofHash, commit.signature.filter (· ≠ []) = some signature ∧
        commit.catalogedAt = some catalogedAt ∧
        computeProofHash commit.proofSketch = .ok proofHash ∧
        checkSignature sig signature key (signatureMessage commit proofHash catalogedAt) =
          .ok () := by
  unfold verifySignature
  constructor
  · intro accepted
    split at accepted
    · simp at accepted
    · simp at accepted
    · next signature catalogedAt hsig hcat =>
      obtain ⟨proofHash, hash, check⟩ := bind_eq_ok.mp accepted
      split at check
      · next valid => exact ⟨signature, catalogedAt, proofHash, hsig, hcat, hash, valid⟩
      · split at check <;> simp at check
  · rintro ⟨signature, catalogedAt, proofHash, hsig, hcat, hash, valid⟩
    rw [hsig, hcat]
    simp only [hash, bind_ok, valid]

end Acceptance

section Replies

variable {lib : Library} {data : JsonValue} {id taskId : Uuid} {systemId signature : Text}
  {sketch : ProofSketchOf PyStr} {catalogedAt : Text}

def signedMessage (id taskId : Uuid) (systemId proofHash catalogedAt : Text) : Text :=
  id.str ++ '|' :: (taskId.str ++ '|' :: (systemId ++ '|' :: (proofHash ++ '|' :: catalogedAt)))

structure SignedReply (lib : Library) (data : JsonValue) (id taskId : Uuid) (systemId : Text)
    (sketch : ProofSketchOf PyStr) (catalogedAt signature : Text) : Prop where
  id : getItem "id" data = .ok (text id.str)
  taskId : getItem "task_id" data = .ok (text taskId.str)
  systemId : getItem "system_id" data = .ok (text systemId)
  proofSketch : ∃ v w, getItem "proof_sketch" data = .ok v ∧ embeddedSketch lib v = .ok w ∧
    ProofSketchOf.validate lib w = some sketch
  catalogedAt : getItem "cataloged_at" data = .ok (text catalogedAt)
  signature : getItem "signature" data = .ok (text signature)

theorem SignedReply.decoded {w : Wall} {extra : Fin 1000} {commit : Commit}
    (reply : SignedReply lib data id taskId systemId sketch (rfc3339Nano w extra) signature)
    (decoded : Commit.fromApiResponse lib data = .ok commit) :
    commit.id = id ∧ commit.taskId = taskId ∧ commit.systemId = raw systemId ∧
      commit.proofSketch = sketch ∧ commit.catalogedAt = some (utcAt w) ∧
      commit.signature = some (raw signature) := by
  have fields := decoded_of_fromApiResponse decoded
  obtain ⟨v, hid, huuid⟩ := fields.id
  obtain rfl := Except.ok.inj (reply.id.symm.trans hid)
  obtain ⟨v, htask, htaskUuid⟩ := fields.taskId
  obtain rfl := Except.ok.inj (reply.taskId.symm.trans htask)
  obtain ⟨v, hsystem, hsystemId⟩ := fields.systemId
  obtain rfl := Except.ok.inj (reply.systemId.symm.trans hsystem)
  obtain ⟨v, x, hsketch, hembedded, hproof⟩ := fields.proofSketch
  obtain ⟨v', x', hsketch', hembedded', hproof'⟩ := reply.proofSketch
  obtain rfl := Except.ok.inj (hsketch.symm.trans hsketch')
  obtain rfl := Except.ok.inj (hembedded.symm.trans hembedded')
  obtain ⟨v, hcat, htime⟩ := fields.catalogedAt
  obtain rfl := Except.ok.inj ((getOr_of_getItem reply.catalogedAt .null).symm.trans hcat)
  obtain ⟨v, hsig, hsignature⟩ := fields.signature
  obtain rfl := Except.ok.inj ((getOr_of_getItem reply.signature .null).symm.trans hsig)
  rw [uuidOf_str, Except.ok.injEq, Option.some.injEq] at huuid htaskUuid
  rw [asText_raw, Option.some.injEq] at hsystemId
  have nonempty : truthy (text (rfc3339Nano w extra)) = true := by
    simp [truthy, text, rfc3339Nano, raw]
  rw [optionalIso, if_pos nonempty, text, isoField, fromisoformat_rfc3339Nano] at htime
  have same := (nullable_python (some signature)).symm.trans hsignature
  exact ⟨huuid.symm, htaskUuid.symm, hsystemId.symm, Option.some.inj (hproof.symm.trans hproof'),
    (Except.ok.inj htime).symm, (Option.some.inj same).symm⟩

theorem signedMessage_inj {proofHash a b : Text} :
    signedMessage id taskId systemId proofHash a = signedMessage id taskId systemId proofHash b ↔
      a = b := by
  simp [signedMessage]

/-- The Exchange's signature is on the message of the cataloging time it reports. -/
structure HonestlySigned (lib : Library) (sig : SignatureLib) (key : Option Text) (data : JsonValue)
    (id taskId : Uuid) (systemId : Text) (sketch : ProofSketchOf PyStr) (w : Wall)
    (extra : Fin 1000)
    (proofHash signature : Text) : Prop where
  reply : SignedReply lib data id taskId systemId sketch (rfc3339Nano w extra) signature
  hash : computeProofHash sketch = .ok proofHash
  signed : checkSignature sig (raw signature) key
    (raw (signedMessage id taskId systemId proofHash (rfc3339Nano w extra))) = .ok ()

variable {sig : SignatureLib} {key : Option Text} {w : Wall} {extra : Fin 1000} {proofHash : Text}
  {commit : Commit}

/-- The client rebuilds the message with the offset spelt out where the signed one has
`Z`. -/
theorem HonestlySigned.rebuilt
    (honest : HonestlySigned lib sig key data id taskId systemId sketch w extra proofHash signature)
    (decoded : Commit.fromApiResponse lib data = .ok commit) :
    commit.catalogedAt = some (utcAt w) ∧
    signatureMessage commit proofHash (utcAt w) =
      raw (signedMessage id taskId systemId proofHash (isoformat (utcAt w))) ∧
    signatureMessage commit proofHash (utcAt w) ≠
      raw (signedMessage id taskId systemId proofHash (rfc3339Nano w extra)) := by
  obtain ⟨hid, htask, hsystem, _, hcat, _⟩ := honest.reply.decoded decoded
  have rebuilt : signatureMessage commit proofHash (utcAt w) =
      raw (signedMessage id taskId systemId proofHash (isoformat (utcAt w))) := by
    rw [signatureMessage, signedMessage, hid, htask, hsystem]
    simp [raw, pipe]
  refine ⟨hcat, rebuilt, ?_⟩
  rw [rebuilt, ne_eq, raw_injective.eq_iff, signedMessage_inj]
  exact isoformat_ne_rfc3339Nano w w extra

theorem HonestlySigned.rejected (one : SignatureLib.OneMessage sig)
    (honest : HonestlySigned lib sig key data id taskId systemId sketch w extra proofHash signature)
    (decoded : Commit.fromApiResponse lib data = .ok commit) :
    verifySignature sig commit key ≠ .ok true := by
  intro accepted
  obtain ⟨_, _, _, hsketch, hcat, hsig⟩ := honest.reply.decoded decoded
  obtain ⟨signature', catalogedAt', proofHash', hsig', hcat', hash', check⟩ :=
    verifySignature_eq_true.mp accepted
  obtain rfl : raw signature = signature' := by
    rw [hsig] at hsig'
    exact Option.some.inj (Option.mem_filter_iff.mp hsig').1
  obtain rfl := Option.some.inj (hcat.symm.trans hcat')
  obtain rfl : proofHash = proofHash' := by
    rw [hsketch] at hash'
    exact Except.ok.inj (honest.hash.symm.trans hash')
  exact (honest.rebuilt decoded).2.2 (checkSignature_message_eq one check honest.signed)

end Replies

section Sample

def oneSignature (key signature : Text) (keyBytes signatureBytes : Bytes) (message : Text) :
    SignatureLib where
  b58decode := fun s =>
    if s = raw signature then .ok signatureBytes else .error (foreign .valueError)
  fromHex := fun k => if k = key then .ok keyBytes else .error (foreign .valueError)
  verify := fun k m s => if k = keyBytes ∧ m = utf8 message ∧ s = signatureBytes then .ok ()
    else .error (foreign .valueError)

theorem oneMessage_oneSignature (key signature : Text) (keyBytes signatureBytes : Bytes)
    (message : Text) : SignatureLib.OneMessage
      (oneSignature key signature keyBytes signatureBytes message) := by
  intro k m n s hm hn
  simp only [oneSignature] at hm hn
  split at hm
  · next first =>
    split at hn
    · next second => rw [first.2.1, second.2.1]
    · simp at hn
  · simp at hm

theorem checkSignature_oneSignature {key signature : Text} {keyBytes signatureBytes : Bytes}
    (message : Text) (hkey : key ≠ []) (hbytes : keyBytes ≠ []) :
    checkSignature (oneSignature key signature keyBytes signatureBytes message) (raw signature)
      (some key) (raw message) = .ok () := by
  have used : (some key).filter (fun k => decide (k ≠ [])) = some key :=
    Option.filter_eq_some_iff.mpr ⟨rfl, decide_eq_true hkey⟩
  have decoded : publicKeyBytes (oneSignature key signature keyBytes signatureBytes message)
      (some key) = .ok keyBytes := by
    rw [publicKeyBytes, used]
    exact if_pos rfl
  refine checkSignature_eq_ok.mpr
    ⟨signatureBytes, keyBytes, message, if_pos rfl, decoded, hbytes, encode_raw _, ?_⟩
  exact if_pos ⟨rfl, rfl, rfl⟩

def sampleSketch : ProofSketch where
  atpMetadata :=
    { specVersion := "0.2.0".toList
      specUri := none
      systemUri := "https://x/systems/s".toList
      systemType := "agent".toList
      taskId := sampleTask.str
      classification := some defaultClassification }
  dependencies := []
  cryptography :=
    { algorithm := "SHA-256".toList
      invocationHash := hashPrefix ++ List.replicate 64 '0'
      outcomeHash := hashPrefix ++ List.replicate 64 '0'
      dependenciesHash := some (hashPrefix ++ sha256 "[]".toList) }
  timestamp := noon

def sampleReply (catalogedAt signature : Text) : JsonValue := record
  [("id", text sampleId.str), ("system_id", text "s".toList), ("task_id", text sampleTask.str),
   ("proof_sketch", sampleSketch.dump), ("status", .str (lit "confirmed")),
   ("signature", text signature), ("cataloged_at", text catalogedAt),
   ("created_at", date noon)]

def sampleProofHash : Text := sha256 ((encode (sketchMessage sampleSketch)).getD [])

theorem computeProofHash_sample :
    computeProofHash sampleSketch.python = .ok sampleProofHash := by
  obtain ⟨t, encoded, hash⟩ := computeProofHash_eq_ok sampleSketch
  rw [computeProofHash, sketchMessage_python, ← computeProofHash, hash, sampleProofHash, encoded,
    Option.getD_some]

def hexBytes : Text → Bytes
  | a :: b :: rest => UInt8.ofNat (hexValue a * 16 + hexValue b) :: hexBytes rest
  | _ => []

def exchangeKey : Text :=
  "d75a980182b10ab7d54bfed3c964073a0ee172f3daa62325af021a68f707511a".toList

def sampleLib (catalogedAt signature signatureHex : Text) : SignatureLib :=
  oneSignature exchangeKey signature (hexBytes exchangeKey) (hexBytes signatureHex)
    (signedMessage sampleId sampleTask "s".toList sampleProofHash catalogedAt)

theorem sampleReply_signed (catalogedAt signature : Text) :
    SignedReply isoLibrary (sampleReply catalogedAt signature) sampleId sampleTask "s".toList
      sampleSketch.python catalogedAt signature where
  id := by simp [sampleReply]
  taskId := by simp [sampleReply]
  systemId := by simp [sampleReply]
  proofSketch := ⟨sampleSketch.dump, sampleSketch.dump,
    by simp [sampleReply], rfl, ProofSketchOf.validate_python (sketch_isoLibrary (by decide))⟩
  catalogedAt := by simp [sampleReply]
  signature := by simp [sampleReply]

def noonZulu : Text := rfc3339Nano noon.wall 0

def zuluSignature : Text :=
  "X5uCzG9W4sbTxLpF92az2rskSByh4xv75j5ZRD431yTAHYqASd5c5mMLMhjkU16sGJ41UNJrmFFbqfUwe2YWW3n".toList

def zuluLib : SignatureLib := sampleLib noonZulu zuluSignature
  ("19f1977b2bded170a8d596d44433d552444e8b6265b2a7dee5ecb359cbd0be3e" ++
    "710d12cf0842d899388fc55ce101910cf2d910bc41407f5f43cffcb39e70c40d").toList

theorem zuluReply_honest : HonestlySigned isoLibrary zuluLib (some exchangeKey)
    (sampleReply noonZulu zuluSignature) sampleId sampleTask "s".toList sampleSketch.python
    noon.wall 0 sampleProofHash zuluSignature where
  reply := sampleReply_signed _ _
  hash := computeProofHash_sample
  signed := checkSignature_oneSignature _ (by decide) (by decide)

theorem zuluReply_decodes :
    ∃ commit, Commit.fromApiResponse isoLibrary (sampleReply noonZulu zuluSignature) =
      .ok commit := by
  have decodes : (Commit.fromApiResponse isoLibrary
      (sampleReply noonZulu zuluSignature)).toOption.isSome := by decide +kernel
  cases result : Commit.fromApiResponse isoLibrary (sampleReply noonZulu zuluSignature) with
  | ok commit => exact ⟨commit, rfl⟩
  | error e => simp [result, Except.toOption] at decodes

end Sample

section Honesty

variable {lib : Library} {sig : SignatureLib} {key : Option Text} {data : JsonValue}
  {id taskId : Uuid} {systemId signature proofHash : Text} {sketch : ProofSketchOf PyStr}
  {w : Wall} {extra : Fin 1000}

/-- An honestly signed commit is never accepted, whatever its time. -/
theorem honestlySigned_not_verified (one : SignatureLib.OneMessage sig)
    (honest : HonestlySigned lib sig key data id taskId systemId sketch w extra proofHash
      signature) :
    ∀ commit, Commit.fromApiResponse lib data = .ok commit →
      commit.catalogedAt = some (utcAt w) ∧
      signatureMessage commit proofHash (utcAt w) ≠
        raw (signedMessage id taskId systemId proofHash (rfc3339Nano w extra)) ∧
      verifySignature sig commit key ≠ .ok true := by
  intro commit decoded
  obtain ⟨hcat, _, apart⟩ := honest.rebuilt decoded
  exact ⟨hcat, apart, honest.rejected one decoded⟩

/-- The sample commit, signed at noon UTC, is rejected under the key that signed it. -/
theorem zuluReply_rejected :
    checkSignature zuluLib (raw zuluSignature) (some exchangeKey)
      (raw (signedMessage sampleId sampleTask "s".toList sampleProofHash noonZulu)) = .ok () ∧
    ∃ commit, Commit.fromApiResponse isoLibrary (sampleReply noonZulu zuluSignature) = .ok commit ∧
      commit.signature = some (raw zuluSignature) ∧
      verifySignature zuluLib commit (some exchangeKey) ≠ .ok true := by
  obtain ⟨commit, decoded⟩ := zuluReply_decodes
  obtain ⟨_, _, _, _, _, hsig⟩ := zuluReply_honest.reply.decoded decoded
  exact ⟨zuluReply_honest.signed, commit, decoded, hsig,
    zuluReply_honest.rejected (oneMessage_oneSignature _ _ _ _ _) decoded⟩

theorem honestlySigned_noon :
    ∃ commit, Commit.fromApiResponse isoLibrary (sampleReply noonZulu zuluSignature) = .ok commit ∧
      commit.catalogedAt = some noon ∧
      verifySignature zuluLib commit (some exchangeKey) ≠ .ok true := by
  obtain ⟨commit, decoded⟩ := zuluReply_decodes
  obtain ⟨hcat, _, rejected⟩ := honestlySigned_not_verified (oneMessage_oneSignature _ _ _ _ _)
    zuluReply_honest commit decoded
  exact ⟨commit, decoded, hcat, rejected⟩

end Honesty

end AgentTrust.SignedCommit
