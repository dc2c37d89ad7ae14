import Cloink.Lib.Except
import Cloink.Lib.NetipParse

/-!
# Verification of a downloaded update

`ArtifactVerify.Verify` downloads the revocation list, the bundle of artifact keys and the signature
of the artifact, all of which an attacker may have served, and checks them against the embedded root
keys and against one another. Signed messages have no tag that says what they are: the bytes of a
list or bundle, or the hash and the length of an artifact, are followed by the second of the
timestamp. The decoders of PEM and JSON, the hashes and `ed25519.Verify` are parameters. Each of the
three validations reads the clock on its own.
-/

namespace Cloink.Reposign

open Except

abbrev Bytes := List UInt8

/-! ### Times -/

/-- A point in time, or a duration, in nanoseconds; points are counted from the Unix epoch. -/
abbrev Time := Int

namespace Time

def second : Time := 10 ^ 9

/-- The zero value of `time.Time`, the first second of the year 1. -/
def zero : Time := -62135596800 * second

def isZero (t : Time) : Bool := t == zero

def unix (t : Time) : Int := t / second

def after (t u : Time) : Bool := u < t

/-- `time.Time.Sub`, which saturates at the ends of a 64-bit duration. -/
def sub (t u : Time) : Time := max (-2 ^ 63) (min (2 ^ 63 - 1) (t - u))

/-- `time.Duration.Abs`, with the least duration taken to the greatest. -/
def abs (d : Time) : Time := min (2 ^ 63 - 1) (max d (-d))

/-- Saturation does not matter for a comparison with a duration that is not the greatest. -/
theorem lt_sub_iff {t u d : Time} (h₀ : -2 ^ 63 ≤ d) (h : d < 2 ^ 63 - 1) :
    d < t.sub u ↔ d < t - u := by
  simp only [sub, lt_max_iff, lt_min_iff, not_lt.2 h₀, h, false_or, true_and]

end Time

def maxClockSkew : Time := 5 * 60 * Time.second

def tenYears : Time := 10 * 365 * 24 * 60 * 60 * Time.second

def maxArtifactKeySignatureAge : Time := tenYears

def maxArtifactSignatureAge : Time := tenYears

def maxRevocationSignatureAge : Time := tenYears

/-! ### Documents -/

/-- The first eight bytes of the SHA-256 of a public key. -/
abbrev KeyID := Vector UInt8 8

structure KeyMetadata where
  id : KeyID
  createdAt : Time
  expiresAt : Time
  deriving DecidableEq

structure PublicKey where
  key : Bytes
  metadata : KeyMetadata
  deriving DecidableEq

/-- A signature file; the names of the algorithms in it are not looked at. -/
structure Signature where
  signature : Bytes
  timestamp : Time
  keyID : KeyID
  deriving DecidableEq

/-- A revocation list as its JSON has it, with the key ids as texts. -/
structure RevocationJSON where
  revoked : List (String × Time)
  lastUpdated : Time
  expiresAt : Time

structure RevocationList where
  revoked : List (KeyID × Time)
  lastUpdated : Time
  expiresAt : Time
  deriving DecidableEq

/-- The key id is listed as revoked. -/
def RevocationList.lists (rl : RevocationList) (id : KeyID) : Bool := rl.revoked.any (·.1 == id)

structure PemBlock where
  type : String
  bytes : Bytes
  rest : Bytes

/-- `pem.Decode` and the JSON decoders; a decoded block takes bytes away. -/
structure Codec where
  pemDecode : Bytes → Option PemBlock
  rest_lt : ∀ {data b}, pemDecode data = some b → b.rest.length < data.length
  unmarshalPublicKey : Bytes → Option PublicKey
  unmarshalSignature : Bytes → Option Signature
  unmarshalRevocationList : Bytes → Option RevocationJSON

/-- The hashes and `ed25519.Verify`, of a key, a message and a signature. -/
structure Crypto where
  sha256 : Bytes → Vector UInt8 32
  blake2s : Bytes → Bytes
  verify : Bytes → Bytes → Bytes → Bool

inductive Error where
  | download
  | unmarshalSignature
  | unmarshalRevocationList
  | parseKeyID (text : String)
  | missingLastUpdated
  | missingExpiresAt
  | timestampInFuture
  | signatureTooOld
  | lastUpdatedInFuture
  | revocationListExpired
  | expiresAtTooFar
  | timestampMismatch
  | revocationListNotVerified
  | decodePem
  | pemType (got want : String)
  | unmarshalPublicKey
  | keySize (got : Nat)
  | noKeys
  | artifactKeysNotVerified
  | allKeysRevoked (count : Nat)
  | keyExpired (id : KeyID)
  | artifactNotVerified (id : KeyID)
  | noSigningKey (id : KeyID)
  | readArtifact
  deriving DecidableEq

section

variable (codec : Codec) (crypto : Crypto)

/-! ### Keys -/

def tagArtifactPublic : String := "ARTIFACT PUBLIC KEY"

def publicKeySize : Nat := 32

def computeKeyID (pub : Bytes) : KeyID :=
  Vector.ofFn fun i => (crypto.sha256 pub)[i.val]

/-- The first key of the data and the bytes behind it. Its id is computed from the key, whatever
the data say it is. -/
def parsePublicKey (data : Bytes) (typeTag : String) : Except Error (PublicKey × Bytes) := do
  let b ← expect .decodePem (codec.pemDecode data)
  reject (b.type ≠ typeTag) (.pemType b.type typeTag)
  let pub ← expect .unmarshalPublicKey (codec.unmarshalPublicKey b.bytes)
  reject (pub.key.length ≠ publicKeySize) (.keySize pub.key.length)
  let metadata := { pub.metadata with id := computeKeyID crypto pub.key }
  return ({ pub with metadata := metadata }, b.rest)

theorem length_lt_of_parsePublicKey {data rest : Bytes} {typeTag : String} {pub : PublicKey}
    (h : parsePublicKey codec crypto data typeTag = .ok (pub, rest)) :
    rest.length < data.length := by
  simp only [parsePublicKey, bind_eq_ok_iff, reject_eq_ok_iff, expect_eq_ok_iff, exists_const] at h
  obtain ⟨b, hb, -, p, -, -, hr⟩ := h
  obtain ⟨-, rfl⟩ := Prod.mk.inj (ok.inj hr)
  exact codec.rest_lt hb

/-- The keys of a bundle, one block after the other. -/
def parseKeys (typeTag : String) (bundle : Bytes) : Except Error (List PublicKey) :=
  if bundle.isEmpty then .ok []
  else match h : parsePublicKey codec crypto bundle typeTag with
    | .error e => .error e
    | .ok (keyInfo, rest) => do
      have := length_lt_of_parsePublicKey codec crypto h
      let keys ← parseKeys typeTag rest
      return keyInfo :: keys
  termination_by bundle.length

def parsePublicKeyBundle (bundle : Bytes) (typeTag : String) : Except Error (List PublicKey) := do
  let keys ← parseKeys codec crypto typeTag bundle
  reject keys.isEmpty .noKeys
  return keys

variable (publicRootKeys : List PublicKey)

/-- One of the root keys verifies the signature. -/
def verifyAny (msg sig : Bytes) : Bool :=
  (publicRootKeys.map (·.key)).any fun k => crypto.verify k msg sig

/-! ### Messages -/

/-- The eight bytes of a 64-bit integer, the least significant first. -/
def appendUint64 (msg : Bytes) (n : Int) : Bytes :=
  msg ++ (List.range 8).map fun i => UInt8.ofNat ((n % 2 ^ 64).toNat / 256 ^ i)

/-- The signed message of a bundle or a revocation list. -/
def dataMessage (data : Bytes) (timestamp : Time) : Bytes := appendUint64 data timestamp.unix

/-- The signed message of an artifact. -/
def artifactMessage (data : Bytes) (timestamp : Time) : Bytes :=
  appendUint64 (appendUint64 (crypto.blake2s data) data.length) timestamp.unix

/-! ### The revocation list -/

def hexDecode : List Char → Option Bytes
  | [] => some []
  | [_] => none
  | c :: d :: cs => do
    let hi ← Netip.hexVal c
    let lo ← Netip.hexVal d
    let bytes ← hexDecode cs
    return UInt8.ofNat (16 * hi + lo) :: bytes

/-- The eight bytes that sixteen hexadecimal digits stand for. -/
def parseKeyID (s : String) : Option KeyID :=
  (hexDecode s.toList).bind fun b =>
    if h : b.length = 8 then some ⟨b.toArray, by simp [h]⟩ else none

def parseRevocationList (data : Bytes) : Except Error RevocationList := do
  let temp ← expect .unmarshalRevocationList (codec.unmarshalRevocationList data)
  let revoked ← temp.revoked.mapM fun kv => do
    let kid ← expect (.parseKeyID kv.1) (parseKeyID kv.1)
    return (kid, kv.2)
  reject (temp.lastUpdated.isZero) .missingLastUpdated
  reject (temp.expiresAt.isZero) .missingExpiresAt
  return { revoked := revoked, lastUpdated := temp.lastUpdated, expiresAt := temp.expiresAt }

def validateRevocationList (data : Bytes)
    (signature : Signature) (now : Time) : Except Error RevocationList := do
  let revoList ← parseRevocationList codec data
  reject (signature.timestamp.after (now + maxClockSkew)) .timestampInFuture
  reject (maxRevocationSignatureAge < now.sub signature.timestamp) .signatureTooOld
  reject (revoList.lastUpdated.after (now + maxClockSkew)) .lastUpdatedInFuture
  reject (now.after revoList.expiresAt) .revocationListExpired
  reject (revoList.expiresAt.after (now + maxRevocationSignatureAge)) .expiresAtTooFar
  reject (maxClockSkew < (signature.timestamp.sub revoList.lastUpdated).abs) .timestampMismatch
  reject (!verifyAny crypto publicRootKeys (dataMessage data signature.timestamp)
    signature.signature) .revocationListNotVerified
  return revoList

/-! ### The artifact keys -/

/-- The key has an expiry, and the time is past it. -/
def PublicKey.expired (pubKey : PublicKey) (now : Time) : Bool :=
  !pubKey.metadata.expiresAt.isZero && now.after pubKey.metadata.expiresAt

def validateArtifactKeys (data : Bytes) (signature : Signature)
    (revocationList : RevocationList) (now : Time) : Except Error (List PublicKey) := do
  reject (signature.timestamp.after (now + maxClockSkew)) .timestampInFuture
  reject (maxArtifactKeySignatureAge < now.sub signature.timestamp) .signatureTooOld
  reject (!verifyAny crypto publicRootKeys (dataMessage data signature.timestamp)
    signature.signature) .artifactKeysNotVerified
  let pubKeys ← parsePublicKeyBundle codec crypto data tagArtifactPublic
  let validKeys := pubKeys.filter fun pubKey =>
    !pubKey.expired now && !revocationList.lists pubKey.metadata.id
  reject validKeys.isEmpty (.allKeysRevoked pubKeys.length)
  return validKeys

/-! ### The artifact -/

def validateArtifact (artifactPubKeys : List PublicKey) (data : Bytes) (signature : Signature)
    (now : Time) : Except Error Unit := do
  reject (signature.timestamp.after (now + maxClockSkew)) .timestampInFuture
  reject (maxArtifactSignatureAge < now.sub signature.timestamp) .signatureTooOld
  let keyInfo ← expect (.noSigningKey signature.keyID)
    (artifactPubKeys.find? fun k => k.metadata.id == signature.keyID)
  reject (keyInfo.expired signature.timestamp) (.keyExpired signature.keyID)
  reject (!crypto.verify keyInfo.key (artifactMessage crypto data signature.timestamp)
    signature.signature) (.artifactNotVerified signature.keyID)

/-! ### Verify -/

def keySizeLimit : Nat := 5 * 1024 * 1024

def signatureLimit : Nat := 1024

def revocationLimit : Nat := 10 * 1024 * 1024

/-- `DownloadToMemory`: of a body that is too long the first bytes. -/
def downloadToMemory (body : Option Bytes) (limit : Nat) : Except Error Bytes :=
  expect .download (body.map (·.take limit))

def parseSignature (data : Bytes) : Except Error Signature :=
  expect .unmarshalSignature (codec.unmarshalSignature data)

/-- What the server answers to the five requests; an answer may fail. -/
structure Served where
  revocationList : Option Bytes
  revocationSign : Option Bytes
  artifactPubKeys : Option Bytes
  artifactPubKeysSig : Option Bytes
  artifactSig : Option Bytes

def loadRevocationList (rootKeys : List PublicKey) (served : Served) (now : Time) :
    Except Error RevocationList := do
  let data ← downloadToMemory served.revocationList revocationLimit
  let sigData ← downloadToMemory served.revocationSign signatureLimit
  let signature ← parseSignature codec sigData
  validateRevocationList codec crypto rootKeys data signature now

def loadArtifactKeys (rootKeys : List PublicKey) (served : Served)
    (revocationList : RevocationList) (now : Time) : Except Error (List PublicKey) := do
  let data ← downloadToMemory served.artifactPubKeys keySizeLimit
  let sigData ← downloadToMemory served.artifactPubKeysSig signatureLimit
  let signature ← parseSignature codec sigData
  validateArtifactKeys codec crypto rootKeys data signature revocationList now

def loadArtifactSignature (served : Served) : Except Error Signature := do
  let data ← downloadToMemory served.artifactSig signatureLimit
  parseSignature codec data

/-- `ArtifactVerify.Verify`, with the content of the artifact file and the clock as the three
validations read it. -/
def verify (rootKeys : List PublicKey) (served : Served) (artifactFile : Option Bytes)
    (t₁ t₂ t₃ : Time) : Except Error Unit := do
  let revocationList ← loadRevocationList codec crypto rootKeys served t₁
  let artifactPubKeys ← loadArtifactKeys codec crypto rootKeys served revocationList t₂
  let signature ← loadArtifactSignature codec served
  let artifactData ← expect .readArtifact artifactFile
  validateArtifact crypto artifactPubKeys artifactData signature t₃

end

/-! ### What was signed -/

/-- Every key holder's signed messages. -/
abbrev SignedMessages := Bytes → Bytes → Prop

/-- No signature verifies but one that the holder of the key made. -/
def Unforgeable (crypto : Crypto) (signed : SignedMessages) : Prop :=
  ∀ key msg sig, crypto.verify key msg sig = true → signed key msg

/-- The timestamp is at most the clock skew in the future and not older than the limit. -/
structure Fresh (timestamp now limit : Time) : Prop where
  not_future : timestamp ≤ now + maxClockSkew
  not_old : now - timestamp ≤ limit

/-- The key has no expiry, or the time is not past it. -/
def PublicKey.ValidAt (k : PublicKey) (t : Time) : Prop :=
  k.metadata.expiresAt = Time.zero ∨ t ≤ k.metadata.expiresAt

/-- The chain of trust from the root keys to an artifact. The bytes served for the revocation list
and for the key bundle are `list` and `bundle`, and `keyID` is the id in the artifact's
signature. -/
structure ChainOfTrust (codec : Codec) (crypto : Crypto) (signed : SignedMessages)
    (rootKeys : List PublicKey) (list bundle : Bytes) (keyID : KeyID) (artifact : Bytes)
    (t₁ t₂ t₃ : Time) (revocationList : RevocationList) (key : PublicKey) : Prop where
  /-- A root key signed the revocation list, which has not expired. -/
  listSigned : ∃ root ∈ rootKeys, ∃ τ, signed root.key (dataMessage list τ) ∧
    Fresh τ t₁ maxRevocationSignatureAge
  listParsed : parseRevocationList codec list = .ok revocationList
  listCurrent : t₁ ≤ revocationList.expiresAt
  /-- A root key signed the bundle. -/
  bundleSigned : ∃ root ∈ rootKeys, ∃ τ, signed root.key (dataMessage bundle τ) ∧
    Fresh τ t₂ maxArtifactKeySignatureAge
  /-- The artifact key is in the bundle, and its id is that of the signature. -/
  inBundle : ∃ keys, parsePublicKeyBundle codec crypto bundle tagArtifactPublic = .ok keys ∧
    key ∈ keys
  key_id : computeKeyID crypto key.key = keyID
  keyCurrent : key.ValidAt t₂
  not_revoked : revocationList.lists keyID = false
  /-- The artifact key signed the hash and the length of the artifact, and of no other file. -/
  artifactSigned : ∃ τ, signed key.key (artifactMessage crypto artifact τ) ∧
    Fresh τ t₃ maxArtifactSignatureAge ∧ key.ValidAt τ ∧
      ∀ file τ', artifactMessage crypto file τ' = artifactMessage crypto artifact τ →
        file = artifact

/-! ### What each document passed -/

section

variable {codec : Codec} {crypto : Crypto} {signed : SignedMessages}
  {rootKeys : List PublicKey} {signature : Signature} {now : Time}

theorem appendUint64_inj {a b : Bytes} {m n : Int} (h : appendUint64 a m = appendUint64 b n) :
    a = b :=
  (List.append_inj' h (by simp)).1

/-- A signed message stands for one artifact. -/
theorem artifactMessage_inj (hh : Function.Injective crypto.blake2s) {file file' : Bytes}
    {τ τ' : Time} (h : artifactMessage crypto file τ = artifactMessage crypto file' τ') :
    file = file' :=
  hh (appendUint64_inj (appendUint64_inj h))

theorem verifyAny_eq_true {msg sig : Bytes} :
    verifyAny crypto rootKeys msg sig ↔ ∃ root ∈ rootKeys, crypto.verify root.key msg sig := by
  simp [verifyAny]

/-- The two clock checks give freshness, also where `Sub` saturates. -/
theorem fresh_of_checks {t limit : Time} (h₀ : 0 ≤ limit) (hl : limit < 2 ^ 63 - 1)
    (hf : t.after (now + maxClockSkew) = false)
    (ho : decide (limit < now.sub t) = false) : Fresh t now limit where
  not_future := by simpa [Time.after] using hf
  not_old := by
    rw [← not_lt, ← Time.lt_sub_iff ((by decide : (-2 ^ 63 : Int) ≤ 0).trans h₀) hl]
    simpa using ho

variable {k : PublicKey} {data bundle : Bytes} {keys : List PublicKey} {tag : String}

theorem validAt_of_not_expired (h : k.expired now = false) : k.ValidAt now := by
  by_cases hz : k.metadata.expiresAt = Time.zero
  · exact .inl hz
  · refine .inr ?_
    simpa [PublicKey.expired, Time.isZero, Time.after, hz] using h

/-- A root key verifies the signature of the data. -/
def RootVerified (crypto : Crypto) (rootKeys : List PublicKey) (data : Bytes)
    (signature : Signature) : Prop :=
  ∃ root ∈ rootKeys,
    crypto.verify root.key (dataMessage data signature.timestamp) signature.signature

theorem validateRevocationList_spec {rl : RevocationList}
    (h : validateRevocationList codec crypto rootKeys data signature now = .ok rl) :
    parseRevocationList codec data = .ok rl ∧ now ≤ rl.expiresAt ∧
      RootVerified crypto rootKeys data signature ∧
        Fresh signature.timestamp now maxRevocationSignatureAge := by
  simp only [validateRevocationList, bind_eq_ok_iff, reject_eq_ok_iff, exists_const] at h
  obtain ⟨rl', hp, hf, ho, -, he, -, -, hv, hrt⟩ := h
  obtain rfl : rl' = rl := ok.inj hrt
  exact ⟨hp, by simpa [Time.after] using he, verifyAny_eq_true.1 (by simpa using hv),
    fresh_of_checks (by decide) (by decide) hf ho⟩

theorem validateArtifactKeys_spec {rl : RevocationList} {valid : List PublicKey}
    (h : validateArtifactKeys codec crypto rootKeys data signature rl now = .ok valid) :
    RootVerified crypto rootKeys data signature ∧
      Fresh signature.timestamp now maxArtifactKeySignatureAge ∧
      ∃ keys, parsePublicKeyBundle codec crypto data tagArtifactPublic = .ok keys ∧
        ∀ k ∈ valid, k ∈ keys ∧ k.ValidAt now ∧ rl.lists k.metadata.id = false := by
  simp only [validateArtifactKeys, bind_eq_ok_iff, reject_eq_ok_iff, exists_const] at h
  obtain ⟨hf, ho, hvr, keys, hky, -, hrt⟩ := h
  obtain rfl := ok.inj hrt
  refine ⟨verifyAny_eq_true.1 (by simpa using hvr),
    fresh_of_checks (by decide) (by decide) hf ho, keys, hky, fun k hk => ?_⟩
  obtain ⟨hmm, hv⟩ := List.mem_filter.1 hk
  simp only [Bool.and_eq_true, Bool.not_eq_true'] at hv
  exact ⟨hmm, validAt_of_not_expired hv.1, hv.2⟩

theorem validateArtifact_spec (h : validateArtifact crypto keys data signature now = .ok ()) :
    ∃ k ∈ keys, k.metadata.id = signature.keyID ∧
      crypto.verify k.key (artifactMessage crypto data signature.timestamp) signature.signature ∧
      Fresh signature.timestamp now maxArtifactSignatureAge ∧ k.ValidAt signature.timestamp := by
  simp only [validateArtifact, bind_eq_ok_iff, reject_eq_ok_iff, expect_eq_ok_iff, exists_const] at h
  obtain ⟨hft, ho, k, hf, he, hv⟩ := h
  refine ⟨k, List.mem_of_find?_eq_some hf, ?_, ?_, ?_, ?_⟩
  · simpa using List.find?_some hf
  · simpa using hv
  · exact fresh_of_checks (by decide) (by decide) hft ho
  · exact validAt_of_not_expired he

theorem id_of_parsePublicKey {rest : Bytes}
    (h : parsePublicKey codec crypto data tag = .ok (k, rest)) :
    k.metadata.id = computeKeyID crypto k.key := by
  simp only [parsePublicKey, bind_eq_ok_iff, reject_eq_ok_iff, expect_eq_ok_iff, exists_const] at h
  obtain ⟨b, -, -, pub, -, -, hr⟩ := h
  obtain ⟨rfl, -⟩ := Prod.mk.inj (ok.inj hr)
  rfl

theorem parseKeys_of_error {e : Error} (he : ¬bundle.isEmpty)
    (h : parsePublicKey codec crypto bundle tag = .error e) :
    parseKeys codec crypto tag bundle = .error e := by
  rw [parseKeys, if_neg he]
  split
  next heq => exact congrArg error (error.inj (heq.symm.trans h))
  next heq => cases heq.symm.trans h

/-- One step of the loop over the bundle. -/
theorem parseKeys_of_ok {rest : Bytes} (he : ¬bundle.isEmpty)
    (h : parsePublicKey codec crypto bundle tag = .ok (k, rest)) :
    parseKeys codec crypto tag bundle =
      parseKeys codec crypto tag rest >>= fun keys => .ok (k :: keys) := by
  rw [parseKeys, if_neg he]
  split
  next heq => cases heq.symm.trans h
  next heq =>
    obtain ⟨rfl, rfl⟩ := Prod.mk.inj (ok.inj (heq.symm.trans h))
    rfl

/-- Keys carry the identifier computed from them; by induction on the bundle. -/
theorem id_of_mem_parseKeys (h : parseKeys codec crypto tag bundle = .ok keys) (hk : k ∈ keys) :
    k.metadata.id = computeKeyID crypto k.key := by
  -- the induction follows the loop over the blocks of the bundle
  induction bundle using parseKeys.induct codec crypto tag generalizing keys with
  | case1 bundle he =>
    rw [parseKeys, if_pos he] at h
    obtain rfl := ok.inj h
    cases hk
  | case2 bundle he e her =>
    rw [parseKeys_of_error he her] at h
    cases h
  | case3 bundle he keyInfo rest hok hlt ih =>
    rw [parseKeys_of_ok he hok] at h
    obtain ⟨keys', hk', hr⟩ := bind_eq_ok_iff.1 h
    obtain rfl := ok.inj hr
    rcases List.mem_cons.1 hk with rfl | hk
    · exact id_of_parsePublicKey hok
    · exact ih hk' hk

theorem id_of_mem_parseBundle (h : parsePublicKeyBundle codec crypto bundle tag = .ok keys)
    (hk : k ∈ keys) : k.metadata.id = computeKeyID crypto k.key := by
  simp only [parsePublicKeyBundle, bind_eq_ok_iff, reject_eq_ok_iff, exists_const] at h
  obtain ⟨keys', hk', -, hr⟩ := h
  obtain rfl := ok.inj hr
  exact id_of_mem_parseKeys hk' hk

/-- What `Verify` accepts has a complete chain of trust, for any answers of the server and any
artifact file: every fact holds at the reading of the clock at which it was checked. -/
theorem verify_chainOfTrust {served : Served} {artifactFile : Option Bytes} {t₁ t₂ t₃ : Time}
    (hsigned : Unforgeable crypto signed) (hhash : Function.Injective crypto.blake2s)
    (h : verify codec crypto rootKeys served artifactFile t₁ t₂ t₃ = .ok ()) :
    ∃ list bundle sig artifact, downloadToMemory served.revocationList revocationLimit = .ok list ∧
      downloadToMemory served.artifactPubKeys keySizeLimit = .ok bundle ∧
      loadArtifactSignature codec served = .ok sig ∧ artifactFile = some artifact ∧
      ∃ revocationList key, ChainOfTrust codec crypto signed rootKeys list bundle sig.keyID
        artifact t₁ t₂ t₃ revocationList key := by
  simp only [verify, loadRevocationList, loadArtifactKeys, bind_eq_ok_iff, expect_eq_ok_iff] at h
  obtain ⟨rl, ⟨list, hls, _, -, _, -, hrl⟩, valid, ⟨bundle, hbn, _, -, _, -, hv⟩, sig,
    hs, artifact, ha, hok⟩ := h
  obtain ⟨hp, hc, ⟨r, hr₀, hs₁⟩, hl⟩ := validateRevocationList_spec hrl
  obtain ⟨⟨r', hr', hs₂⟩, hb, keys, hky, hf⟩ := validateArtifactKeys_spec hv
  obtain ⟨key, hke, hid, hτ, hfr, he⟩ := validateArtifact_spec hok
  obtain ⟨hm, hk, hr⟩ := hf key hke
  refine ⟨list, bundle, sig, artifact, hls, hbn, hs, ha, rl, key, ?_⟩
  exact {
    listSigned := ⟨r, hr₀, _, hsigned _ _ _ hs₁, hl⟩
    listParsed := hp
    listCurrent := hc
    bundleSigned := ⟨r', hr', _, hsigned _ _ _ hs₂, hb⟩
    inBundle := ⟨keys, hky, hm⟩
    key_id := by rw [← id_of_mem_parseBundle hky hm, hid]
    keyCurrent := hk
    not_revoked := by rw [← hid, hr]
    artifactSigned := ⟨_, hsigned _ _ _ hτ, hfr, he, fun file τ' => artifactMessage_inj hhash⟩ }

end

/-! ### A served update -/

section

def sampleKey : PublicKey := ⟨List.replicate 32 7, ⟨.replicate 8 0, 0, 0⟩⟩

def rootKey : PublicKey := { sampleKey with key := List.replicate 32 9 }

/-- A codec for which the byte 1 is a block with the sample key, every text is a signature made at
the epoch, and every list is empty and expires a second later. -/
def sampleCodec : Codec where
  pemDecode
    | 1 :: rest => some ⟨tagArtifactPublic, [], rest⟩
    | _ => none
  rest_lt {data b} h := by
    rcases data with _ | ⟨c, rest⟩
    · cases h
    · split at h
      next heq => cases h; cases heq; exact Nat.lt_succ_self _
      next => cases h
  unmarshalPublicKey _ := some sampleKey
  unmarshalSignature data := some ⟨data, 0, .replicate 8 0⟩
  unmarshalRevocationList _ := some ⟨[], 0, Time.second⟩

/-- Hashes that keep the data, and a signature check that every signature passes. -/
def sampleCrypto : Crypto where
  sha256 _ := .replicate 32 0
  blake2s := id
  verify _ _ _ := true

def sampleServed : Served where
  revocationList := some []
  revocationSign := some [1]
  artifactPubKeys := some [1]
  artifactPubKeysSig := some [2]
  artifactSig := some [3]

/-- The sample codec with another decoder of revocation lists. -/
def withLists (ls : Bytes → Option RevocationJSON) : Codec :=
  { sampleCodec with unmarshalRevocationList := ls }

def withVerify (v : Bytes → Bytes → Bytes → Bool) : Crypto := { sampleCrypto with verify := v }

variable {ls : Bytes → Option RevocationJSON} {v : Bytes → Bytes → Bytes → Bool}
  {roots : List PublicKey}

theorem parseBundle_sample :
    parsePublicKeyBundle (withLists ls) (withVerify v) [1] tagArtifactPublic = .ok [sampleKey] := by
  have hk : parsePublicKey (withLists ls) (withVerify v) [1] tagArtifactPublic =
      .ok (sampleKey, []) := rfl
  rw [parsePublicKeyBundle, parseKeys_of_ok (by simp) hk, parseKeys]
  rfl

/-- The sample is accepted whenever its list is and the other two signatures verify. -/
theorem verify_sample {rl : RevocationList} (hn : rl.lists (.replicate 8 0) = false)
    (hl : validateRevocationList (withLists ls) (withVerify v) roots [] ⟨[1], 0, .replicate 8 0⟩ 0 =
      .ok rl) (h₂ : verifyAny (withVerify v) roots (dataMessage [1] 0) [2])
    (h₃ : v sampleKey.key (artifactMessage sampleCrypto [5] 0) [3]) :
    verify (withLists ls) (withVerify v) roots sampleServed (some [5]) 0 0 0 = .ok () := by
  have hv : validateArtifactKeys (withLists ls) (withVerify v) roots [1]
      ⟨[2], 0, .replicate 8 0⟩ rl 0 = .ok [sampleKey] := by
    simp only [validateArtifactKeys, bind_eq_ok_iff, reject_eq_ok_iff, exists_const]
    refine ⟨by decide, by decide, congrArg not h₂, _, parseBundle_sample, ?_⟩
    have hk : (!sampleKey.expired 0 && !rl.lists sampleKey.metadata.id) = true := by
      rw [show sampleKey.metadata.id = .replicate 8 0 from rfl, hn]
      rfl
    simp [hk]
    rfl
  simp only [verify, loadRevocationList, loadArtifactKeys, bind_eq_ok_iff, expect_eq_ok_iff]
  refine ⟨_, ⟨_, rfl, _, rfl, _, rfl, hl⟩, _, ⟨_, rfl, _, rfl, _, rfl, hv⟩, _, rfl, _, rfl, ?_⟩
  simp only [validateArtifact, bind_eq_ok_iff, reject_eq_ok_iff, expect_eq_ok_iff, exists_const]
  exact ⟨by decide, by decide, _, rfl, by decide, congrArg not h₃⟩

/-- Signatures that were made, each of a key and a message. -/
abbrev SignatureTable := List (Bytes × Bytes × Bytes)

/-- The check that passes the signatures of the table only. -/
def SignatureTable.crypto (made : SignatureTable) : Crypto :=
  withVerify fun key msg sig => (key, msg, sig) ∈ made

def SignatureTable.signed (made : SignatureTable) : SignedMessages :=
  fun key msg => ∃ sig, (key, msg, sig) ∈ made

theorem SignatureTable.unforgeable (made : SignatureTable) :
    Unforgeable made.crypto made.signed :=
  fun _ _ sig h => ⟨sig, of_decide_eq_true h⟩

/-- The root key signed the empty list and the bundle, and the artifact key the artifact. -/
def sampleSigned : SignatureTable :=
  [(rootKey.key, dataMessage [] 0, [1]), (rootKey.key, dataMessage [1] 0, [2]),
    (sampleKey.key, artifactMessage sampleCrypto [5] 0, [3])]

theorem chainOfTrust_sample :
    verify sampleCodec sampleSigned.crypto [rootKey] sampleServed (some [5]) 0 0 0 = .ok () ∧
    ∃ list bundle sig artifact,
      downloadToMemory sampleServed.revocationList revocationLimit = .ok list ∧
      downloadToMemory sampleServed.artifactPubKeys keySizeLimit = .ok bundle ∧
      loadArtifactSignature sampleCodec sampleServed = .ok sig ∧ some [5] = some artifact ∧
      ∃ revocationList key, ChainOfTrust sampleCodec sampleSigned.crypto sampleSigned.signed
        [rootKey] list bundle sig.keyID artifact 0 0 0 revocationList key :=
  ⟨verify_sample rfl rfl rfl rfl, verify_chainOfTrust sampleSigned.unforgeable
    Function.injective_id (verify_sample rfl rfl rfl rfl)⟩

end

end Cloink.Reposign
