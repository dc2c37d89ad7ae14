import Cloink.Lib.NetipParse

/-!
# Access restrictions of a proxied service

`restrict.ParseFilter` builds the filter of a service, and `Filter.Check` decides on a client
address by CIDR lists, country lists and CrowdSec. `ParseFilter` skips entries that it cannot parse,
and an empty list is no restriction. `Check` unmaps the address but not the prefixes, and `netip`
finds no address with a zone in any prefix. The geo database, CrowdSec and `strings.ToUpper` are
parameters.
-/

namespace Cloink.Restrict

open Netip List Prefix

/-! ### Configuration and filter -/

/-- The kind of a CrowdSec remediation. -/
inductive DecisionType where
  | ban
  | captcha
  | throttle
  | other (text : String)
  deriving DecidableEq

/-- `CrowdSecMode`, with the texts the package gives no meaning to as `other`. -/
inductive CrowdSecMode where
  | off
  | enforce
  | observe
  | other (text : String)
  deriving DecidableEq

/-- The bouncer: whether its first sync is done, and its decision on an address. -/
structure CrowdSecChecker where
  ready : Bool
  checkIP : Addr → Option DecisionType

/-- The geo database: whether it is loaded, and the country code of an address, empty when it is
not known. -/
structure GeoResolver where
  available : Bool
  lookupAddr : Addr → String

structure FilterConfig where
  allowedCIDRs : List String := []
  blockedCIDRs : List String := []
  allowedCountries : List String := []
  blockedCountries : List String := []
  crowdSec : Option CrowdSecChecker := none
  crowdSecMode : CrowdSecMode := .off

structure Filter where
  allowedCIDRs : List Prefix
  blockedCIDRs : List Prefix
  allowedCountries : List String
  blockedCountries : List String
  crowdSec : Option CrowdSecChecker
  crowdSecMode : CrowdSecMode

inductive Verdict where
  | allow
  | denyCIDR
  | denyCountry
  | denyGeoUnavailable
  | denyCrowdSecBan
  | denyCrowdSecCaptcha
  | denyCrowdSecThrottle
  | denyCrowdSecUnavailable
  deriving DecidableEq

/-- The mode is one of the two in which CrowdSec is asked. -/
def CrowdSecMode.hasCS (mode : CrowdSecMode) : Bool := mode = .enforce || mode = .observe

/-- The prefixes of the entries that can be parsed; the others are skipped with a warning. -/
def parseCIDRs (cidrs : List String) : List Prefix :=
  cidrs.filterMap fun cidr => (parsePrefix cidr).map masked

section

variable (toUpper : String → String)

def normalizeCountryCodes (codes : List String) : List String := codes.map toUpper

/-- Builds the filter; there is none when no restriction is configured. -/
def parseFilter (cfg : FilterConfig) : Option Filter :=
  let hasCS := cfg.crowdSecMode.hasCS
  if cfg.allowedCIDRs.isEmpty && cfg.blockedCIDRs.isEmpty && cfg.allowedCountries.isEmpty &&
      cfg.blockedCountries.isEmpty && !hasCS then none
  else some {
    allowedCIDRs := parseCIDRs cfg.allowedCIDRs
    blockedCIDRs := parseCIDRs cfg.blockedCIDRs
    allowedCountries := normalizeCountryCodes toUpper cfg.allowedCountries
    blockedCountries := normalizeCountryCodes toUpper cfg.blockedCountries
    crowdSec := if hasCS then cfg.crowdSec else none
    crowdSecMode := if hasCS then cfg.crowdSecMode else .off }

end

/-! ### The check -/

namespace Filter

def checkCIDR (f : Filter) (addr : Addr) : Verdict :=
  if !f.allowedCIDRs.isEmpty && !f.allowedCIDRs.any (·.contains addr) then .denyCIDR
  else if f.blockedCIDRs.any (·.contains addr) then .denyCIDR
  else .allow

def checkCountry (f : Filter) (addr : Addr) (geo : Option GeoResolver) : Verdict :=
  if f.allowedCountries.isEmpty && f.blockedCountries.isEmpty then .allow
  else match geo with
    | none => .denyGeoUnavailable
    | some g =>
      if !g.available then .denyGeoUnavailable
      else
        let countryCode := g.lookupAddr addr
        -- an unknown country is denied by an allowlist only
        if countryCode = "" then
          if !f.allowedCountries.isEmpty then .denyCountry else .allow
        else if !f.allowedCountries.isEmpty && !f.allowedCountries.contains countryCode then
          .denyCountry
        else if f.blockedCountries.contains countryCode then .denyCountry
        else .allow

def checkCrowdSec (f : Filter) (addr : Addr) : Verdict :=
  if f.crowdSecMode = .off then .allow
  else match f.crowdSec with
    | none => if f.crowdSecMode = .enforce then .denyCrowdSecUnavailable else .allow
    | some checker =>
      if !checker.ready then
        if f.crowdSecMode = .enforce then .denyCrowdSecUnavailable else .allow
      else match checker.checkIP addr with
        | none => .allow
        | some .captcha => .denyCrowdSecCaptcha
        | some .throttle => .denyCrowdSecThrottle
        | some _ => .denyCrowdSecBan

end Filter

/-- `Filter.Check`, which is also called without a filter. -/
def check (f : Option Filter) (addr : Addr) (geo : Option GeoResolver) : Verdict :=
  match f with
  | none => .allow
  | some f =>
    let addr := addr.unmap
    let v := f.checkCIDR addr
    if v ≠ .allow then v
    else
      let v := f.checkCountry addr geo
      if v ≠ .allow then v
      else f.checkCrowdSec addr

/-! ### What the configuration admits -/

/-- The address, in either spelling, lies in the CIDR that the text denotes: a prefix of mapped
addresses denotes the IPv4 addresses they hold, and the zone of an address plays no part. -/
def InCIDR (a : Addr) (cidr : String) : Prop :=
  ∃ p, parsePrefix cidr = some p ∧ p.unmap.contains a.unmap.withoutZone = true

namespace FilterConfig

variable (toUpper : String → String) (cfg : FilterConfig) (geo : Option GeoResolver) (a : Addr)

/-- The country that the geo database gives is on the allowlist, if there is one, and not on the
blocklist, on which no unknown country is. -/
def CountryPasses : Prop :=
  cfg.allowedCountries = [] ∧ cfg.blockedCountries = [] ∨ ∃ g, geo = some g ∧ g.available = true ∧
      (cfg.allowedCountries = [] ∨ g.lookupAddr a.unmap ≠ "" ∧
        g.lookupAddr a.unmap ∈ cfg.allowedCountries.map toUpper) ∧
      (g.lookupAddr a.unmap = "" ∨ g.lookupAddr a.unmap ∉ cfg.blockedCountries.map toUpper)

/-- The bouncer is synced and has nothing against the address. -/
def CrowdSecClears : Prop :=
  ∃ c, cfg.crowdSec = some c ∧ c.ready = true ∧ c.checkIP a.unmap = none

/-- What the configuration asks of a client address. -/
structure Admits : Prop where
  allowed : cfg.allowedCIDRs = [] ∨ ∃ cidr ∈ cfg.allowedCIDRs, InCIDR a cidr
  blocked : ∀ cidr ∈ cfg.blockedCIDRs, ¬InCIDR a cidr
  country : cfg.CountryPasses toUpper geo a
  crowdSec : cfg.crowdSecMode ≠ .enforce ∨ cfg.CrowdSecClears a

/-- A prefix among the entries has the address as `netip` sees it: no prefix of mapped addresses
has an unmapped one, and none has an address with a zone. -/
def Lists (cidrs : List String) : Prop :=
  ∃ cidr ∈ cidrs, ∃ p, parsePrefix cidr = some p ∧ p.contains a.unmap = true

/-- CrowdSec has no say, or no decision: in observe mode also when it is not there or not synced. -/
def CrowdSecPasses : Prop :=
  cfg.crowdSecMode.hasCS = false ∨ cfg.CrowdSecClears a ∨
    cfg.crowdSecMode = .observe ∧ ∀ c, cfg.crowdSec = some c → c.ready = false

/-- Nothing that can be parsed turns the address away. -/
structure Unopposed : Prop where
  allowed : parseCIDRs cfg.allowedCIDRs = [] ∨ Lists a cfg.allowedCIDRs
  blocked : ¬Lists a cfg.blockedCIDRs
  country : cfg.CountryPasses toUpper geo a
  crowdSec : cfg.CrowdSecPasses a

/-- The gaps of the filter are avoided: an allowlist has an entry that can be parsed, and the
address lies in no blocked prefix of mapped addresses and, when it has a zone, in no blocked prefix
at all. -/
structure Tight : Prop where
  allowed : cfg.allowedCIDRs = [] ∨ ∃ cidr ∈ cfg.allowedCIDRs, (parsePrefix cidr).isSome
  blocked : ∀ cidr ∈ cfg.blockedCIDRs, ∀ p, parsePrefix cidr = some p →
    (p.isMapped ∨ a.unmap.hasZone) → p.unmap.contains a.unmap.withoutZone = false

end FilterConfig

/-! ### The stages of the check -/

section

variable {toUpper : String → String} {cfg : FilterConfig} {geo : Option GeoResolver} {a : Addr}

variable {f : Filter} {addr : Addr} {cidrs : List String}

theorem check_some_eq_allow_iff : check (some f) a geo = .allow ↔ f.checkCIDR a.unmap = .allow ∧
      f.checkCountry a.unmap geo = .allow ∧ f.checkCrowdSec a.unmap = .allow := by
  simp only [check]
  split
  next h => simp [h]
  next h =>
    split
    next h' => simp [h']
    next h' => simp_all

theorem checkCIDR_eq_allow_iff : f.checkCIDR addr = .allow ↔
    (f.allowedCIDRs = [] ∨ ∃ p ∈ f.allowedCIDRs, p.contains addr) ∧
      ∀ p ∈ f.blockedCIDRs, p.contains addr = false := by
  unfold Filter.checkCIDR
  split
  next h => simp_all
  next h =>
    have ha : f.allowedCIDRs = [] ∨ ∃ p ∈ f.allowedCIDRs, p.contains addr := by
      by_contra hn
      push Not at hn
      exact h (by simp_all)
    split <;> simp_all

theorem checkCountry_eq_allow_iff : f.checkCountry addr geo = .allow ↔
      f.allowedCountries = [] ∧ f.blockedCountries = [] ∨ ∃ g, geo = some g ∧ g.available ∧
          (f.allowedCountries = [] ∨ g.lookupAddr addr ≠ "" ∧
            g.lookupAddr addr ∈ f.allowedCountries) ∧
          (g.lookupAddr addr = "" ∨ g.lookupAddr addr ∉ f.blockedCountries) := by
  unfold Filter.checkCountry
  split
  next h => simp_all
  next h =>
    have hl : ¬(f.allowedCountries = [] ∧ f.blockedCountries = []) := by simpa using h
    cases geo with
    | none => simp [hl]
    | some g =>
      by_cases hav : g.available
      · by_cases hc : g.lookupAddr addr = ""
        · by_cases ha : f.allowedCountries = [] <;> simp_all
        · by_cases ha : f.allowedCountries = [] <;>
            by_cases hm : g.lookupAddr addr ∈ f.allowedCountries <;> simp_all
      · simp [hl, hav]

theorem checkCrowdSec_eq_allow_iff : f.checkCrowdSec addr = .allow ↔ f.crowdSecMode = .off ∨
      (∃ c, f.crowdSec = some c ∧ c.ready ∧ c.checkIP addr = none) ∨
      f.crowdSecMode ≠ .enforce ∧ ∀ c, f.crowdSec = some c → c.ready = false := by
  unfold Filter.checkCrowdSec
  split
  next h => simp [h]
  next h =>
    cases hc : f.crowdSec with
    | none => simp [h]
    | some c =>
      by_cases hr : c.ready
      · cases hd : c.checkIP addr with
        | none => simp [h, hr, hd]
        | some d => cases d <;> simp [h, hr, hd]
      · simp [h, hr]

theorem mem_parseCIDRs {q : Prefix} :
    q ∈ parseCIDRs cidrs ↔ ∃ cidr ∈ cidrs, ∃ p, parsePrefix cidr = some p ∧ p.masked = q := by
  simp [parseCIDRs, mem_filterMap]

theorem parseCIDRs_eq_nil_iff :
    parseCIDRs cidrs = [] ↔ ∀ cidr ∈ cidrs, parsePrefix cidr = none := by
  simp [parseCIDRs, filterMap_eq_nil_iff]

theorem exists_mem_parseCIDRs :
    (∃ q ∈ parseCIDRs cidrs, q.contains a.unmap) ↔ FilterConfig.Lists a cidrs := by
  constructor
  · rintro ⟨q, hq, hc⟩
    obtain ⟨cidr, hcd, p, hp, rfl⟩ := mem_parseCIDRs.1 hq
    exact ⟨cidr, hcd, p, hp, by rwa [contains_masked] at hc⟩
  · rintro ⟨cidr, hcd, p, hp, hc⟩
    exact ⟨p.masked, mem_parseCIDRs.2 ⟨cidr, hcd, p, hp, rfl⟩, by rwa [contains_masked]⟩

theorem forall_mem_parseCIDRs :
    (∀ q ∈ parseCIDRs cidrs, q.contains a.unmap = false) ↔ ¬FilterConfig.Lists a cidrs := by
  rw [← exists_mem_parseCIDRs]
  push Not
  simp

theorem check_eq_allow_iff :
    check (parseFilter toUpper cfg) a geo = .allow ↔ cfg.Unopposed toUpper geo a := by
  have hs : cfg.Unopposed toUpper geo a ↔
      ((parseCIDRs cfg.allowedCIDRs = [] ∨ FilterConfig.Lists a cfg.allowedCIDRs) ∧
        ¬FilterConfig.Lists a cfg.blockedCIDRs) ∧ cfg.CountryPasses toUpper geo a ∧
          cfg.CrowdSecPasses a :=
    ⟨fun h => ⟨⟨h.allowed, h.blocked⟩, h.country, h.crowdSec⟩,
      fun h => ⟨h.1.1, h.1.2, h.2.1, h.2.2⟩⟩
  rw [hs]
  simp only [parseFilter]
  split
  next h =>
    -- without restrictions there is no filter, and nothing to oppose the address
    simp_all [check, parseCIDRs, FilterConfig.Lists, FilterConfig.CountryPasses,
      FilterConfig.CrowdSecPasses]
  next h =>
    rw [check_some_eq_allow_iff, checkCIDR_eq_allow_iff, checkCountry_eq_allow_iff,
      checkCrowdSec_eq_allow_iff, exists_mem_parseCIDRs, forall_mem_parseCIDRs]
    refine and_congr Iff.rfl (and_congr ?_ ?_)
    · simp [FilterConfig.CountryPasses, normalizeCountryCodes]
    · cases hm : cfg.crowdSecMode <;>
        simp [FilterConfig.CrowdSecPasses, FilterConfig.CrowdSecClears, CrowdSecMode.hasCS, hm]

end

/-! ### Failing closed -/

section

variable {cidr : String} {cidrs : List String} {a : Addr}

theorem FilterConfig.Lists.inCIDR (h : FilterConfig.Lists a cidrs) :
    ∃ cidr ∈ cidrs, InCIDR a cidr := by
  obtain ⟨cidr, hcd, p, hp, hc⟩ := h
  exact ⟨cidr, hcd, p, hp, contains_unmap a.is4In6_unmap hc⟩

variable {toUpper : String → String} {cfg : FilterConfig} {geo : Option GeoResolver}

theorem FilterConfig.Unopposed.admits (h : cfg.Unopposed toUpper geo a) (ht : cfg.Tight a) :
    cfg.Admits toUpper geo a where
  allowed := by
    refine h.allowed.elim (fun hn => ?_) fun hl => .inr hl.inCIDR
    refine ht.allowed.imp_right fun ⟨cidr, hc, hs⟩ => ?_
    simp [parseCIDRs_eq_nil_iff.1 hn cidr hc] at hs
  blocked := by
    rintro cidr hc ⟨p, hp, hin⟩
    by_cases hg : p.isMapped ∨ a.unmap.hasZone
    · exact absurd hin (by simp [ht.blocked cidr hc p hp hg])
    · obtain ⟨hm, hz⟩ : p.isMapped = false ∧ a.unmap.hasZone = false := by
        simpa [not_or] using hg
      exact h.blocked ⟨cidr, hc, p, hp, contains_of_unmap hm hz hin⟩
  country := h.country
  crowdSec := by
    rcases h.crowdSec with hcs | hcl | ⟨ho, -⟩
    · exact .inl fun he => by simp [he, CrowdSecMode.hasCS] at hcs
    · exact .inr hcl
    · exact .inl fun he => by simp [ho] at he

theorem FilterConfig.Admits.tight (h : cfg.Admits toUpper geo a) : cfg.Tight a where
  allowed := h.allowed.imp_right fun ⟨cidr, hc, p, hp, _⟩ => ⟨cidr, hc, by simp [hp]⟩
  blocked cidr hc p hp _ := by
    rw [Bool.eq_false_iff]
    exact fun hin => h.blocked cidr hc ⟨p, hp, hin⟩

/-- The filter fails closed on an address exactly when the address is opposed anyway, or the
allowlist has an entry that can be parsed and the address lies in no blocked prefix of mapped
addresses and, with a zone, in no blocked prefix. -/
theorem check_sound_iff (toUpper : String → String) (cfg : FilterConfig)
    (geo : Option GeoResolver) (a : Addr) :
    (check (parseFilter toUpper cfg) a geo = .allow → cfg.Admits toUpper geo a) ↔
      (cfg.Unopposed toUpper geo a → cfg.Tight a) := by
  rw [check_eq_allow_iff]
  constructor
  · intro hs hun
    exact (hs hun).tight
  · intro ht hun
    exact hun.admits (ht hun)

/-- An allowlist with a typing error lets in everyone, and the blocked prefix `::ffff:10.0.0.0/104`
lets in `10.0.0.1`. -/
theorem check_fails_open :
    (check (parseFilter String.toUpper { allowedCIDRs := ["10.0.0.0/33"] })
        (.v4 #v[203, 0, 113, 7]) none = .allow ∧
      ¬({ allowedCIDRs := ["10.0.0.0/33"] } : FilterConfig).Admits String.toUpper none
        (.v4 #v[203, 0, 113, 7])) ∧
    check (parseFilter String.toUpper { blockedCIDRs := ["::ffff:10.0.0.0/104"] })
        (.v4 #v[10, 0, 0, 1]) none = .allow ∧
      ¬({ blockedCIDRs := ["::ffff:10.0.0.0/104"] } : FilterConfig).Admits String.toUpper none
        (.v4 #v[10, 0, 0, 1]) := by
  have hb : parsePrefix "10.0.0.0/33" = none := by decide +kernel
  have hm : ∃ p, parsePrefix "::ffff:10.0.0.0/104" = some p ∧
      p.unmap.contains (.v4 #v[10, 0, 0, 1]) = true := by decide +kernel
  refine ⟨⟨by decide +kernel, fun h => ?_⟩, by decide +kernel, fun h => ?_⟩
  · rcases h.allowed with hn | ⟨cidr, hc, p, hp, -⟩
    · simp at hn
    · obtain rfl : cidr = "10.0.0.0/33" := by simpa using hc
      simp [hb] at hp
  · exact h.blocked _ (mem_singleton.2 rfl) hm

end

end Cloink.Restrict
