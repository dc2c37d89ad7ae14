import Cloink.Updater.Reposign
import Cloink.Lib.Interleaving

/-!
# Old documents served again

A server that an attacker controls may answer `Verify` with any document that was ever published.
Root keys are used whether they have expired or not, the list of one call replaces that of the call
before, and the signature of an artifact says nothing of its version and file name.
-/

namespace Cloink.Reposign

open Except Interleaving

section

variable (codec : Codec) (crypto : Crypto)

/-! ### Expired root keys -/

def loadSignature (body : Option Bytes) : Except Error Signature := do
  let data ← downloadToMemory body signatureLimit
  parseSignature codec data

variable (signed : SignedMessages) (rootKeys : List PublicKey) (served : Served)

/-- No root key that verifies the served signature of the data was expired at its time. -/
def SignersCurrent (sign : Option Bytes) (data : Bytes) : Prop :=
  ∀ sig, loadSignature codec sign = .ok sig → ∀ root ∈ rootKeys,
    crypto.verify root.key (dataMessage data sig.timestamp) sig.signature →
      root.ValidAt sig.timestamp

/-- The root keys that verify the signatures of the served list and bundle were not expired at the
times of these signatures. -/
def RootsCurrent : Prop :=
  (∀ list, downloadToMemory served.revocationList revocationLimit = .ok list →
    SignersCurrent codec crypto rootKeys served.revocationSign list) ∧
  ∀ bundle, downloadToMemory served.artifactPubKeys keySizeLimit = .ok bundle →
    SignersCurrent codec crypto rootKeys served.artifactPubKeysSig bundle

/-- A root key signed the data at the time of the served signature, which it verifies, and no such
key was expired then. -/
def SignedByCurrent (sign : Option Bytes) (data : Bytes) : Prop :=
  SignersCurrent codec crypto rootKeys sign data ∧ ∃ sig, loadSignature codec sign = .ok sig ∧
    ∃ root ∈ rootKeys, signed root.key (dataMessage data sig.timestamp) ∧
      crypto.verify root.key (dataMessage data sig.timestamp) sig.signature

/-- The artifact key that signed the artifact was not expired at `t`, nor was a root key at the time
at which it signed the revocation list or the bundle. -/
def KeysCurrent (artifactFile : Option Bytes) (t : Time) : Prop :=
  ∃ list bundle artifact keys, ∃ key ∈ keys,
    downloadToMemory served.revocationList revocationLimit = .ok list ∧
    SignedByCurrent codec crypto signed rootKeys served.revocationSign list ∧
    downloadToMemory served.artifactPubKeys keySizeLimit = .ok bundle ∧
    SignedByCurrent codec crypto signed rootKeys served.artifactPubKeysSig bundle ∧
    parsePublicKeyBundle codec crypto bundle tagArtifactPublic = .ok keys ∧ key.ValidAt t ∧
    artifactFile = some artifact ∧ ∃ τ, signed key.key (artifactMessage crypto artifact τ)

/-! ### One verifier, several calls -/

/-- The root keys, and the revocation list that the last call loaded. -/
structure ArtifactVerify where
  rootKeys : List PublicKey
  revocationList : Option RevocationList := none

/-- The answers of the server to one call, the artifact and the readings of the clock. -/
structure Call where
  served : Served
  artifactFile : Option Bytes
  t₁ : Time
  t₂ : Time
  t₃ : Time

namespace ArtifactVerify

variable (a : ArtifactVerify) (c : Call)

def loadRevocationList : Except Error RevocationList :=
  Reposign.loadRevocationList codec crypto a.rootKeys c.served c.t₁

def verify : Except Error Unit :=
  Reposign.verify codec crypto a.rootKeys c.served c.artifactFile c.t₁ c.t₂ c.t₃

/-- The verifier after the call. -/
def step : Option ArtifactVerify :=
  match a.loadRevocationList codec crypto c with
  | .error _ => some a
  | .ok rl => some { a with revocationList := some rl }

/-- The list that the call loads has every key of the one before. -/
def Extends : Prop :=
  ∀ old new, a.revocationList = some old → a.loadRevocationList codec crypto c = .ok new →
    ∀ k, old.lists k → new.lists k

end ArtifactVerify

/-! ### Releases -/

/-- A released file with the signature that `SignData` made for it. -/
structure Release where
  version : String
  fileName : String
  content : Bytes
  signature : Signature

/-- `Verify` for a version and a file name, which it only uses to ask for the signature. -/
def verifyRelease (artifactSigs : String → String → Option Bytes) (version fileName : String)
    (artifactFile : Option Bytes) (t₁ t₂ t₃ : Time) : Except Error Unit :=
  verify codec crypto rootKeys { served with artifactSig := artifactSigs version fileName }
    artifactFile t₁ t₂ t₃

/-- The key is in a bundle that a root key signed. -/
def Trusted (key : PublicKey) : Prop :=
  ∃ bundle keys, (∃ root ∈ rootKeys, ∃ τ, signed root.key (dataMessage bundle τ)) ∧
    parsePublicKeyBundle codec crypto bundle tagArtifactPublic = .ok keys ∧ key ∈ keys

/-- The signatures of artifacts by a trusted key are those of the releases, each for the message it
was made for. -/
def OnlyReleasesSigned (published : List Release) : Prop :=
  ∀ key, Trusted codec crypto signed rootKeys key → ∀ file τ sig,
    crypto.verify key.key (artifactMessage crypto file τ) sig →
      ∃ r ∈ published, r.signature.signature = sig ∧
        artifactMessage crypto r.content r.signature.timestamp = artifactMessage crypto file τ

end

variable {codec : Codec} {crypto : Crypto} {signed : SignedMessages} {rootKeys : List PublicKey}
  {served : Served} {artifactFile : Option Bytes} {t₁ t₂ t₃ : Time}

/-- What an accepted artifact rests on: the documents and the signatures that the server sent, and a
key of the bundle. -/
theorem verify_spec (h : verify codec crypto rootKeys served artifactFile t₁ t₂ t₃ = .ok ()) :
    ∃ list bundle artifact keys s₁ s₂ sig, ∃ key ∈ keys,
      downloadToMemory served.revocationList revocationLimit = .ok list ∧
      loadSignature codec served.revocationSign = .ok s₁ ∧ RootVerified crypto rootKeys list s₁ ∧
      downloadToMemory served.artifactPubKeys keySizeLimit = .ok bundle ∧
      loadSignature codec served.artifactPubKeysSig = .ok s₂ ∧
      RootVerified crypto rootKeys bundle s₂ ∧
      parsePublicKeyBundle codec crypto bundle tagArtifactPublic = .ok keys ∧ key.ValidAt t₂ ∧
      artifactFile = some artifact ∧ loadArtifactSignature codec served = .ok sig ∧
      crypto.verify key.key (artifactMessage crypto artifact sig.timestamp) sig.signature := by
  simp only [verify, Reposign.loadRevocationList, loadArtifactKeys, bind_eq_ok_iff,
    expect_eq_ok_iff] at h
  obtain ⟨rl, ⟨list, hls, d₁, hd₁, s₁, hs₁, hrl⟩, valid, ⟨bundle, hbn, d₂, hd₂, s₂, hs₂, hv⟩, sig,
    hsig, artifact, ha, hok⟩ := h
  obtain ⟨-, -, hv₁, -⟩ := validateRevocationList_spec hrl
  obtain ⟨hv₂, -, keys, hky, hf⟩ := validateArtifactKeys_spec hv
  obtain ⟨key, hke, -, hτ, -⟩ := validateArtifact_spec hok
  obtain ⟨hm, hk, -⟩ := hf key hke
  exact ⟨list, bundle, artifact, keys, s₁, s₂, sig, key, hm, hls, bind_eq_ok_iff.2 ⟨d₁, hd₁, hs₁⟩,
    hv₁, hbn, bind_eq_ok_iff.2 ⟨d₂, hd₂, hs₂⟩, hv₂, hky, hk, ha, hsig, hτ⟩

/-- The keys behind an accepted artifact were not expired exactly when no root key was whose
signature of the list or the bundle was served: `Verify` itself only looks at the expiry of the
artifact key. -/
theorem verify_keys_current (hs : Unforgeable crypto signed)
    (h : verify codec crypto rootKeys served artifactFile t₁ t₂ t₃ = .ok ()) :
    KeysCurrent codec crypto signed rootKeys served artifactFile t₂ ↔
      RootsCurrent codec crypto rootKeys served := by
  constructor
  · rintro ⟨list, bundle, _, _, _, -, hl, ⟨hcl, -⟩, hb, ⟨hcb, -⟩, -⟩
    exact ⟨fun list' hl' => ok.inj (hl.symm.trans hl') ▸ hcl,
      fun bundle' hb' => ok.inj (hb.symm.trans hb') ▸ hcb⟩
  · rintro ⟨hcl, hcb⟩
    obtain ⟨list, bundle, artifact, keys, s₁, s₂, sig, key, hm, hl, hs₁, ⟨r₁, hr₁, hv₁⟩, hb, hs₂,
      ⟨r₂, hr₂, hv₂⟩, hky, hk, ha, -, hτ⟩ := verify_spec h
    exact ⟨list, bundle, artifact, keys, key, hm, hl,
      ⟨hcl list hl, s₁, hs₁, r₁, hr₁, hs _ _ _ hv₁, hv₁⟩, hb,
      ⟨hcb bundle hb, s₂, hs₂, r₂, hr₂, hs _ _ _ hv₂, hv₂⟩, hky, hk, ha, _, hs _ _ _ hτ⟩

def expiredRoot : PublicKey := { rootKey with metadata.expiresAt := -1 }

/-- The second root key has expired, and signed nothing. -/
theorem sample_keys_current :
    let roots := [rootKey, { expiredRoot with key := [] }]
    verify sampleCodec sampleSigned.crypto roots sampleServed (some [5]) 0 0 0 = .ok () ∧
      KeysCurrent sampleCodec sampleSigned.crypto sampleSigned.signed roots sampleServed (some [5])
        0 := by
  intro roots
  have hv : verify sampleCodec sampleSigned.crypto roots sampleServed (some [5]) 0 0 0 = .ok () :=
    verify_sample rfl rfl rfl rfl
  have hc (sign : Option Bytes) (data : Bytes) :
      SignersCurrent sampleCodec sampleSigned.crypto roots sign data := by
    intro sig hs root hr hv
    have hm : root.key ∈ sampleSigned.map Prod.fst :=
      List.mem_map_of_mem (f := Prod.fst) (of_decide_eq_true hv)
    obtain ⟨d, -, hd⟩ := bind_eq_ok_iff.1 hs
    obtain rfl := ok.inj hd
    have h₀ : ∀ root ∈ roots, root.key ∈ sampleSigned.map Prod.fst → root.metadata.expiresAt = 0 := by
      decide
    exact .inr (h₀ root hr hm).ge
  exact ⟨hv, (verify_keys_current sampleSigned.unforgeable hv).2
    ⟨fun _ _ => hc _ _, fun _ _ => hc _ _⟩⟩

/-- The list and the bundle are signed after the only root key has expired. -/
theorem expired_root_accepted : Unforgeable sampleSigned.crypto sampleSigned.signed ∧
    verify sampleCodec sampleSigned.crypto [expiredRoot] sampleServed (some [5]) 0 0 0 = .ok () ∧
    ¬KeysCurrent sampleCodec sampleSigned.crypto sampleSigned.signed [expiredRoot] sampleServed
      (some [5]) 0 := by
  refine ⟨sampleSigned.unforgeable, verify_sample rfl rfl rfl rfl, ?_⟩
  rintro ⟨list, _, _, _, _, -, -, ⟨hc, sig, hs, root, hr, -, hv⟩, -⟩
  have hcur := hc sig hs root hr hv
  obtain rfl := List.mem_singleton.1 hr
  obtain rfl := ok.inj hs
  simp [PublicKey.ValidAt, expiredRoot, Time.zero, Time.second] at hcur

theorem lists_keyID_eq_false {sig : Signature}
    (h : verify codec crypto rootKeys served artifactFile t₁ t₂ t₃ = .ok ())
    (hsig : loadArtifactSignature codec served = .ok sig) :
    ∃ rl, loadRevocationList codec crypto rootKeys served t₁ = .ok rl ∧
      rl.lists sig.keyID = false := by
  simp only [verify, loadArtifactKeys, bind_eq_ok_iff, expect_eq_ok_iff] at h
  obtain ⟨rl, hrl, valid, ⟨_, -, _, -, _, -, hv⟩, sig', hs', _, -, hok⟩ := h
  obtain rfl := ok.inj (hs'.symm.trans hsig)
  obtain ⟨-, -, _, -, hf⟩ := validateArtifactKeys_spec hv
  obtain ⟨key, hke, hid, -⟩ := validateArtifact_spec hok
  exact ⟨rl, hrl, hid ▸ (hf key hke).2.2⟩

/-- After a call that loaded a list with the key, no call accepts an artifact signed by it, if each
list that is loaded has every key of the one before. -/
theorem revoked_never_accepted {a a' s : ArtifactVerify} {c₀ c : Call} {rl : RevocationList}
    {k : KeyID} (h₀ : a.loadRevocationList codec crypto c₀ = .ok rl) (hk : rl.lists k)
    (ha : a.step codec crypto c₀ = some a')
    (hr : Reaches (ArtifactVerify.step codec crypto) (ArtifactVerify.Extends codec crypto) a' s)
    (hc : s.Extends codec crypto c) (hok : s.verify codec crypto c = .ok ()) {sig : Signature}
    (hsig : loadArtifactSignature codec c.served = .ok sig) : sig.keyID ≠ k := by
  have hi : ∃ held, s.revocationList = some held ∧ held.lists k := by
    simp only [ArtifactVerify.step, h₀, Option.some.injEq] at ha
    refine hr.invariant (p := fun s => ∃ held, s.revocationList = some held ∧ held.lists k)
      ⟨rl, ha ▸ rfl, hk⟩ fun s c s' ⟨held, hh, hl⟩ he hs => ?_
    unfold ArtifactVerify.step at hs
    split at hs
    · cases hs
      exact ⟨held, hh, hl⟩
    next new hn =>
      cases hs
      exact ⟨new, rfl, he held new hh hn k hl⟩
  obtain ⟨held, hh, hl⟩ := hi
  obtain ⟨new, hn, hf⟩ := lists_keyID_eq_false hok hsig
  rintro rfl
  simp [hc held new hh hn _ hl] at hf

/-- The call after one that revoked the key is served the list from before. -/
theorem revoked_accepted_again :
    let codec := withLists fun data => some ⟨data.map fun _ => ("0000000000000000", 0), 0, 1⟩
    let old : Call := ⟨sampleServed, some [5], 0, 0, 0⟩
    let new : Call := { old with served.revocationList := some [1] }
    ∃ a rl, ArtifactVerify.step codec sampleCrypto ⟨[sampleKey], none⟩ new = some a ∧
      a.revocationList = some rl ∧ rl.lists (.replicate 8 0) ∧
      a.verify codec sampleCrypto old = .ok () ∧
      loadArtifactSignature codec old.served = .ok ⟨[3], 0, .replicate 8 0⟩ :=
  ⟨_, _, rfl, rfl, by decide +kernel, verify_sample rfl rfl rfl rfl, rfl⟩

/-- The calls before and between are served the list that revokes another key, too. -/
theorem other_key_accepted :
    let codec := withLists fun _ => some ⟨[("0101010101010101", 0)], 0, 1⟩
    let c : Call := ⟨sampleServed, some [5], 0, 0, 0⟩
    ArtifactVerify.verify codec sampleCrypto ⟨[sampleKey], none⟩ c = .ok () ∧
      (Vector.replicate 8 0 : KeyID) ≠ .replicate 8 1 := by
  intro codec c
  have hv (held : Option RevocationList) :
      ArtifactVerify.verify codec sampleCrypto ⟨[sampleKey], held⟩ c = .ok () :=
    verify_sample rfl rfl rfl rfl
  have h₀ : ArtifactVerify.loadRevocationList codec sampleCrypto ⟨[sampleKey], none⟩ c = .ok _ := rfl
  have he : ArtifactVerify.Extends codec sampleCrypto
      ⟨[sampleKey], some ⟨[(.replicate 8 1, 0)], 0, 1⟩⟩ c := by
    intro old new ho hn k hk
    cases ho
    cases hn
    exact hk
  exact ⟨hv _, revoked_never_accepted h₀ rfl rfl (.tail .refl he rfl) he (hv _) rfl⟩

def sampleReleases : List Release :=
  [⟨"1.0", "client", [5], ⟨[3], 0, .replicate 8 0⟩⟩,
    ⟨"1.1", "client", [6], ⟨[4], 0, .replicate 8 0⟩⟩]

/-- The signatures of the sample and of the second release, and one that an attacker made with a key
of their own. -/
def releaseSigned : SignatureTable :=
  sampleSigned ++ [(sampleKey.key, artifactMessage sampleCrypto [6] 0, [4]),
    ([], artifactMessage sampleCrypto [7] 0, [5])]

theorem key_of_trusted {key : PublicKey}
    (h : Trusted sampleCodec releaseSigned.crypto releaseSigned.signed [rootKey] key) :
    key = sampleKey := by
  obtain ⟨bundle, keys, ⟨root, hr, τ, sig, hs⟩, hky, hk⟩ := h
  obtain rfl := List.mem_singleton.1 hr
  have hd : ∀ e ∈ releaseSigned, e.1 = rootKey.key →
      e.2.1 = dataMessage [] 0 ∨ e.2.1 = dataMessage [1] 0 := by decide
  rcases hd _ hs rfl with hb | hb
  · obtain rfl : bundle = [] := appendUint64_inj hb
    rw [parsePublicKeyBundle, parseKeys] at hky
    cases hky
  · obtain rfl : bundle = [1] := appendUint64_inj hb
    obtain rfl := ok.inj (parseBundle_sample.symm.trans hky)
    exact List.mem_singleton.1 hk

theorem onlyReleasesSigned_sample : OnlyReleasesSigned sampleCodec releaseSigned.crypto
    releaseSigned.signed [rootKey] sampleReleases := by
  intro key hk file τ sig h
  obtain rfl := key_of_trusted hk
  have hr : ∀ e ∈ releaseSigned, e.1 = sampleKey.key → ∃ r ∈ sampleReleases,
      r.signature.signature = e.2.2 ∧
        artifactMessage sampleCrypto r.content r.signature.timestamp = e.2.1 := by decide
  exact hr _ (of_decide_eq_true h) rfl

end Cloink.Reposign
