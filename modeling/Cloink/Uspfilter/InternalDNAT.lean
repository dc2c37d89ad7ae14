import Cloink.Lib.FinMap
import Cloink.Lib.Netip

/-!
# Internal address translation

The userspace firewall translates addresses one to one (`client/firewall/uspfilter/nat.go`): what is
sent to an original address goes to its translation, and answers from there come from the original.
The mappings are kept twice, the second time with their inverse, beside a flag that spares the
lookups when there are none.
-/

namespace Cloink.Uspfilter

open Netip AList

structure BiDNATMap where
  forward : AList fun _ : Addr => Addr := ∅
  reverse : AList fun _ : Addr => Addr := ∅

namespace BiDNATMap

variable (b : BiDNATMap)

def set (original translated : Addr) : BiDNATMap where
  forward := b.forward.insert original translated
  reverse := b.reverse.insert translated original

def delete (original : Addr) : BiDNATMap :=
  match b.forward.lookup original with
  | some translated => ⟨b.forward.erase original, b.reverse.erase translated⟩
  | none => b

def getTranslated (original : Addr) : Option Addr := b.forward.lookup original

def getOriginal (translated : Addr) : Option Addr := b.reverse.lookup translated

end BiDNATMap

inductive DNATError where
  | invalidOriginal
  | invalidTranslated
  | localIP (translatedAddr : Addr)
  | notFound (originalAddr : Addr)

/-- The fields of the firewall that translate addresses. -/
structure InternalDNAT where
  dnatMappings : AList fun _ : Addr => Addr := ∅
  dnatBiMap : BiDNATMap := {}
  dnatEnabled : Bool := false

inductive DNATCall where
  /-- `isLocalIP` is what the firewall knows of the local addresses at the time. -/
  | add (isLocalIP : Addr → Bool) (originalAddr translatedAddr : Addr)
  | remove (originalAddr : Addr)

namespace InternalDNAT

variable (m : InternalDNAT)

/-- What `AddInternalDNATMapping` does under its lock. -/
def setMapping (originalAddr translatedAddr : Addr) : InternalDNAT :=
  let dnatMappings := m.dnatMappings.insert originalAddr translatedAddr
  { dnatMappings
    dnatBiMap := m.dnatBiMap.set originalAddr translatedAddr
    dnatEnabled := if dnatMappings.keys.length = 1 then true else m.dnatEnabled }

def addInternalDNATMapping (isLocalIP : Addr → Bool) (originalAddr translatedAddr : Addr) :
    Except DNATError InternalDNAT :=
  if !originalAddr.isValid then .error .invalidOriginal
  else if !translatedAddr.isValid then .error .invalidTranslated
  else if isLocalIP translatedAddr then .error (.localIP translatedAddr)
  else .ok (m.setMapping originalAddr translatedAddr)

def deleteMapping (originalAddr : Addr) : InternalDNAT :=
  let dnatMappings := m.dnatMappings.erase originalAddr
  { dnatMappings
    dnatBiMap := m.dnatBiMap.delete originalAddr
    dnatEnabled := if dnatMappings.keys.length = 0 then false else m.dnatEnabled }

def removeInternalDNATMapping (originalAddr : Addr) : Except DNATError InternalDNAT :=
  if originalAddr ∈ m.dnatMappings then .ok (m.deleteMapping originalAddr)
  else .error (.notFound originalAddr)

/-- A call that fails changes nothing. -/
def step (m : InternalDNAT) : DNATCall → InternalDNAT
  | .add isLocalIP o t => (m.addInternalDNATMapping isLocalIP o t).toOption.getD m
  | .remove o => (m.removeInternalDNATMapping o).toOption.getD m

/-- Where `translateOutboundDNAT` sends what is sent to the address. -/
def getDNATTranslation (addr : Addr) : Option Addr :=
  if m.dnatEnabled then m.dnatBiMap.getTranslated addr else none

/-- Where `translateInboundReverse` says that answers from the address come from. -/
def findReverseDNATMapping (translatedAddr : Addr) : Option Addr :=
  if m.dnatEnabled then m.dnatBiMap.getOriginal translatedAddr else none

/-- The three maps and the flag agree. -/
structure Consistent : Prop where
  forward : m.dnatBiMap.forward = m.dnatMappings
  inverse : ∀ o t, m.dnatBiMap.getOriginal t = some o ↔ m.dnatBiMap.getTranslated o = some t
  enabled : m.dnatEnabled = true ↔ m.dnatMappings.keys ≠ []

/-- A mapping that is added has an original and a translation that no other mapping has. -/
def OneToOne : DNATCall → Prop
  | .add _ o t => ∀ o' t', m.dnatMappings.lookup o' = some t' → (o' = o ↔ t' = t)
  | .remove _ => True

/-- The states after calls that keep the mappings one to one. -/
inductive Reached : InternalDNAT → Prop
  | new : Reached {}
  | step {m : InternalDNAT} {c : DNATCall} : Reached m → m.OneToOne c → Reached (m.step c)

variable {m}

theorem Consistent.setMapping (h : m.Consistent) {o t : Addr}
    (ho : ∀ o' t', m.dnatMappings.lookup o' = some t' → (o' = o ↔ t' = t)) :
    (m.setMapping o t).Consistent where
  forward := congrArg (·.insert o t) h.forward
  inverse o' t' := by
    have hi := h.inverse o' t'
    have hs := ho o' t'
    rw [← h.forward] at hs
    simp only [InternalDNAT.setMapping, BiDNATMap.set, BiDNATMap.getOriginal,
      BiDNATMap.getTranslated, lookup_insert_some] at hi ⊢
    rw [hi]
    tauto
  enabled := by
    refine iff_of_true ?_ (by simp [InternalDNAT.setMapping, keys_insert])
    -- with two mappings or more there was one before
    refine ite_eq_left_iff.2 fun hne => h.enabled.2 fun hn => hne ?_
    rw [keys_insert, hn]
    rfl

theorem Consistent.deleteMapping (h : m.Consistent) {o : Addr} (ho : o ∈ m.dnatMappings) :
    (m.deleteMapping o).Consistent := by
  obtain ⟨t, ht⟩ := mem_iff_lookup.1 ho
  rw [← h.forward] at ht
  have hd : m.dnatBiMap.delete o = ⟨m.dnatBiMap.forward.erase o, m.dnatBiMap.reverse.erase t⟩ := by
    simp [BiDNATMap.delete, ht]
  refine ⟨by simp [InternalDNAT.deleteMapping, hd, h.forward], fun o' t' => ?_, ?_⟩
  · have hi := h.inverse o' t'
    have ho' := h.inverse o' t
    have ht' := h.inverse o t'
    simp only [InternalDNAT.deleteMapping, hd, BiDNATMap.getOriginal,
      BiDNATMap.getTranslated, lookup_erase_some] at hi ho' ht' ⊢
    grind
  · have he : m.dnatEnabled :=
      h.enabled.2 (List.ne_nil_of_mem (mem_keys.1 ho))
    simp [InternalDNAT.deleteMapping, he]

theorem Consistent.step (h : m.Consistent) {call : DNATCall} (hon : m.OneToOne call) :
    (m.step call).Consistent := by
  cases call with
  | add isLocalIP o t =>
    simp only [InternalDNAT.step, addInternalDNATMapping]
    split_ifs
    iterate 3 exact h
    exact h.setMapping hon
  | remove o =>
    simp only [InternalDNAT.step, removeInternalDNATMapping]
    split_ifs with ho
    · exact h.deleteMapping ho
    · exact h

/-- While the mappings are one to one, the maps and the flag agree, and the answers to what was
translated are translated back. -/
theorem consistent_of_reached (h : m.Reached) : m.Consistent ∧
    ∀ o t, m.getDNATTranslation o = some t ↔ m.findReverseDNATMapping t = some o := by
  have hc : m.Consistent := by
    induction h with
    | new => exact ⟨rfl, by simp [BiDNATMap.getOriginal, BiDNATMap.getTranslated], by simp⟩
    | step _ ho ih => exact ih.step ho
  refine ⟨hc, fun o t => ?_⟩
  unfold getDNATTranslation findReverseDNATMapping
  split_ifs
  · exact (hc.inverse o t).symm
  · simp

instance (m : InternalDNAT) : DecidablePred m.OneToOne
  | .add _ o t => decidable_of_iff (∀ e ∈ m.dnatMappings.entries, e.1 = o ↔ e.2 = t)
      ⟨fun h o' t' hl => h ⟨o', t'⟩ (mem_lookup_iff.1 hl), fun h e he => h e.1 e.2
        (mem_lookup_iff.2 he)⟩
  | .remove _ => inferInstanceAs (Decidable True)

/-- Of two mappings one is removed, and its translation is given to another original. -/
theorem consistent_of_reached_mapping :
    let m₁ := step {} (.add (fun _ => false) (.from4 240 0 0 1) (.from4 192 0 2 1))
    let m₂ := m₁.step (.add (fun _ => false) (.from4 240 0 0 2) (.from4 192 0 2 2))
    let m₃ := m₂.step (.remove (.from4 240 0 0 1))
    let m₄ := m₃.step (.add (fun _ => false) (.from4 240 0 0 3) (.from4 192 0 2 1))
    m₄.Reached ∧ m₄.Consistent ∧
      m₄.findReverseDNATMapping (.from4 192 0 2 1) = some (.from4 240 0 0 3) := by
  intro m₁ m₂ m₃ m₄
  have h₁ : m₁.Reached := .step .new (by decide +kernel)
  have h₂ : m₂.Reached := .step h₁ (by decide +kernel)
  have h₃ : m₃.Reached := .step h₂ trivial
  have h₄ : m₄.Reached := .step h₃ (by decide +kernel)
  obtain ⟨hc, hi⟩ := consistent_of_reached h₄
  exact ⟨h₄, hc, (hi _ _).1 (by decide +kernel)⟩

/-- Of two originals with one translation, the first is not found by the answers. -/
theorem answer_from_other_original :
    let m := [DNATCall.add (fun _ => false) (.from4 240 0 0 1) (.from4 192 0 2 1),
      .add (fun _ => false) (.from4 240 0 0 2) (.from4 192 0 2 1)].foldl step {}
    m.getDNATTranslation (.from4 240 0 0 1) = some (.from4 192 0 2 1) ∧
      m.findReverseDNATMapping (.from4 192 0 2 1) = some (.from4 240 0 0 2) := by
  decide +kernel

end InternalDNAT

end Cloink.Uspfilter
