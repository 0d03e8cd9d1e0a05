import Vancine.ProtectedFetch.Addresses

/-!
# What a fetch may reach

The rules of `SSRFProtection`, from the settings they are read from: ports, domains and addresses. Over them, the names
that a domain list covers when names are compared as DNS does.
-/

namespace Vancine.ProtectedFetch

open Lib

/-! ## Settings -/

structure FetchSetting where
  enableSSRFProtection : Bool
  allowPrivateIp : Bool
  domainFilterMode : Bool
  ipFilterMode : Bool
  domainList : List String
  ipList : List String
  allowedPorts : List String
  applyIPFilterForDomain : Bool

/-- Both filter modes: a white list when true, a black list when false. -/
structure SSRFProtection where
  allowPrivateIp : Bool
  domainFilterMode : Bool
  domainList : List String
  ipFilterMode : Bool
  ipList : List String
  allowedPorts : List ℤ
  applyIPFilterForDomain : Bool

/-- The messages, with what they name. -/
inductive FetchError
  | invalidPortRangeFormat (config : String)
  | invalidStartPort (config : String)
  | invalidEndPort (config : String)
  | startAfterEnd (config : String)
  | rangeOutOfBounds (config : String)
  | invalidPortText (text : String)
  | invalidPort (port : ℤ)
  | invalidHost
  | portNotAllowed (port : ℤ)
  | privateIP (host : String) (ip : IP)
  | ipNotInWhitelist (host : String) (ip : IP)
  | ipInBlacklist (host : String) (ip : IP)
  | domainNotInWhitelist (host : String)
  | domainInBlacklist (host : String)
  | invalidURL
  | unsupportedProtocol (scheme : String)
  | resolutionFailed (host : String)
  | noUsableIP (host : String)
  | invalidDialAddress (address : String)
  | dialFailed (address : String)
  | proxyFailed
  | tooManyRedirects

/-! ## Ports -/

/-- One entry of the configured ports, without its blanks. -/
def parsePortRange (config : String) : Except FetchError (List ℤ) :=
  if config = "" then .ok []
  else if '-' ∈ config.toList then
    match config.toList.splitOn '-' with
    | [first, second] =>
      match atoi (trimSpace (String.ofList first)), atoi (trimSpace (String.ofList second)) with
      | none, _ => .error (.invalidStartPort config)
      | some _, none => .error (.invalidEndPort config)
      | some startPort, some endPort =>
        if endPort < startPort then .error (.startAfterEnd config)
        else if startPort < 1 ∨ 65535 < startPort ∨ endPort < 1 ∨ 65535 < endPort then .error (.rangeOutOfBounds config)
        else .ok ((List.range (endPort - startPort + 1).toNat).map fun k : ℕ => startPort + (k : ℤ))
    | _ => .error (.invalidPortRangeFormat config)
  else
    match atoi config with
    | none => .error (.invalidPortText config)
    | some port => if port < 1 ∨ 65535 < port then .error (.invalidPort port) else .ok [port]

def parsePortRanges : List String → Except FetchError (List ℤ)
  | [] => .ok []
  | config :: configs => do
    let ports ← parsePortRange (trimSpace config)
    let more ← parsePortRanges configs
    return ports ++ more

def newSSRFProtectionFromFetchSetting (s : FetchSetting) : Except FetchError SSRFProtection :=
  (parsePortRanges s.allowedPorts).map fun ports =>
    { allowPrivateIp := s.allowPrivateIp, domainFilterMode := s.domainFilterMode, domainList := s.domainList,
      ipFilterMode := s.ipFilterMode, ipList := s.ipList, allowedPorts := ports,
      applyIPFilterForDomain := s.applyIPFilterForDomain }

/-- `currentFetchProtection`: none when the protection is switched off. -/
def currentFetchProtection (s : FetchSetting) : Except FetchError (Option SSRFProtection) :=
  if s.enableSSRFProtection then (newSSRFProtectionFromFetchSetting s).map some else .ok none

def SSRFProtection.isAllowedPort (p : SSRFProtection) (port : ℤ) : Bool :=
  p.allowedPorts.isEmpty || p.allowedPorts.contains port

/-! ## Addresses -/

def privateIPv4Nets : List IPNet :=
  [⟨.v4 0x00000000, 8⟩, ⟨.v4 0x0a000000, 8⟩, ⟨.v4 0x64400000, 10⟩, ⟨.v4 0x7f000000, 8⟩, ⟨.v4 0xa9fe0000, 16⟩,
    ⟨.v4 0xac100000, 12⟩, ⟨.v4 0xc0000000, 24⟩, ⟨.v4 0xc0000200, 24⟩, ⟨.v4 0xc0a80000, 16⟩, ⟨.v4 0xc6120000, 15⟩,
    ⟨.v4 0xc6336400, 24⟩, ⟨.v4 0xcb007100, 24⟩, ⟨.v4 0xe0000000, 4⟩, ⟨.v4 0xf0000000, 4⟩, ⟨.v4 0xffffffff, 32⟩]

def privateIPv6Nets : List IPNet :=
  ["::/128", "::1/128", "::ffff:0:0/96", "64:ff9b::/96", "100::/64", "2001::/23", "2001:db8::/32", "fc00::/7",
    "fe80::/10", "ff00::/8"].filterMap parseCIDR

def IP.isUnspecified (ip : IP) : Bool := ip = .ofV4 0 || ip = ⟨0⟩

def IP.isLoopback (ip : IP) : Bool :=
  match ip.to4 with
  | some a => sameBits 8 a 0x7f000000
  | none => ip = ⟨1⟩

def IP.isLinkLocalUnicast (ip : IP) : Bool :=
  match ip.to4 with
  | some a => sameBits 16 a 0xa9fe0000
  | none => sameBits 10 ip.bits (0xfe80#128 <<< 112)

def IP.isLinkLocalMulticast (ip : IP) : Bool :=
  match ip.to4 with
  | some a => sameBits 24 a 0xe0000000
  | none => (ip.bits >>> 112) &&& 0xff0f#128 = 0xff02#128

/-- Not for IPv4 addresses, whose sixteen bytes begin with zeros. -/
def IP.isInterfaceLocalMulticast (ip : IP) : Bool := (ip.bits >>> 112) &&& 0xff0f#128 = 0xff01#128

/-- `IP.IsPrivate` of an address that is not an IPv4 one. -/
def IP.isPrivate6 (ip : IP) : Bool := sameBits 7 ip.bits (0xfc00#128 <<< 112)

def isPrivateIP (ip : IP) : Bool :=
  ip.isUnspecified || ip.isLoopback || ip.isLinkLocalUnicast || ip.isLinkLocalMulticast ||
    ip.isInterfaceLocalMulticast ||
    match ip.to4 with
    | some _ => privateIPv4Nets.any (·.contains ip)
    | none => privateIPv6Nets.any (·.contains ip) || ip.isPrivate6

def isIpInCIDRList (ip : IP) (cidrList : List String) : Bool :=
  cidrList.any fun cidr =>
    match parseCIDR cidr with
    | some network => network.contains ip
    | none => parseIP cidr = some ip

def isIPListed (ip : IP) (list : List String) : Bool := isIpInCIDRList ip list

namespace SSRFProtection

def isIPAccessAllowed (p : SSRFProtection) (ip : IP) : Bool :=
  if isPrivateIP ip && !p.allowPrivateIp then false
  else if p.ipFilterMode then isIPListed ip p.ipList
  else !isIPListed ip p.ipList

def ipAccessError (p : SSRFProtection) (host : String) (ip : IP) : FetchError :=
  if isPrivateIP ip && !p.allowPrivateIp then .privateIP host ip
  else if p.ipFilterMode then .ipNotInWhitelist host ip
  else .ipInBlacklist host ip

end SSRFProtection

/-! ## Domains -/

section Domains

variable (lowerRune : Char → Char)

/-- `strings.ToLower`; outside ASCII by a table. -/
def toLower (s : String) : String :=
  String.ofList (s.toList.map fun c => if c.toNat < 128 then c.toLower else lowerRune c)

/-- An item of a domain list as it is compared. -/
def listItem (entry : String) : List Char := (toLower lowerRune (trimSpace entry)).toList

/-- One item against a lower-case domain. -/
def itemMatches (item domain : List Char) : Bool :=
  domain = item ||
    match item with
    | '*' :: '.' :: suffix => ('.' :: suffix).isSuffixOf domain || domain = suffix
    | _ => false

def isDomainListed (domain : String) (list : List String) : Bool :=
  list.any fun entry =>
    listItem lowerRune entry ≠ [] && itemMatches (listItem lowerRune entry) (toLower lowerRune domain).toList

namespace SSRFProtection

def isDomainAllowed (p : SSRFProtection) (domain : String) : Bool :=
  if p.domainFilterMode then isDomainListed lowerRune domain p.domainList
  else !isDomainListed lowerRune domain p.domainList

/-! ## Targets -/

def validateNetworkTarget (p : SSRFProtection) (rawHost : String) (port : ℤ) : Except FetchError Unit :=
  let host := trimSpace rawHost
  if host = "" then .error .invalidHost
  else if port < 1 ∨ 65535 < port then .error (.invalidPort port)
  else if !p.isAllowedPort port then .error (.portNotAllowed port)
  else
    match parseIP host with
    | some ip => if p.isIPAccessAllowed ip then .ok () else .error (p.ipAccessError "" ip)
    | none =>
      if p.isDomainAllowed lowerRune host then .ok ()
      else if p.domainFilterMode then .error (.domainNotInWhitelist host)
      else .error (.domainInBlacklist host)

def validateResolvedIP (p : SSRFProtection) (host : String) (ip : IP) : Except FetchError Unit :=
  if p.isIPAccessAllowed ip then .ok () else .error (p.ipAccessError host ip)

end SSRFProtection

/-! ## Names as DNS compares them -/

def dropFinalDot (name : List Char) : List Char := if name.getLast? = some '.' then name.dropLast else name

/-- The host is the name of the entry, or, for an entry `*.d`, it is `d` or a name below `d`; the case of letters and
one final dot do not count. -/
def Covers (entry host : String) : Prop :=
  listItem lowerRune entry ≠ [] ∧
    (dropFinalDot (toLower lowerRune host).toList = dropFinalDot (listItem lowerRune entry) ∨
      ∃ d, listItem lowerRune entry = '*' :: '.' :: d ∧
        (dropFinalDot (toLower lowerRune host).toList = dropFinalDot d ∨
          ('.' :: dropFinalDot d) <:+ dropFinalDot (toLower lowerRune host).toList))

/-- Both names have a final dot, or neither has. -/
def SameEnd (a b : List Char) : Prop := a.getLast? = some '.' ↔ b.getLast? = some '.'

/-- A covered host is a name, and one of the entries that cover it ends as it does. -/
def EndsAsListed (list : List String) (host : String) : Prop :=
  (∃ entry ∈ list, Covers lowerRune entry host) →
    parseIP (trimSpace host) = none ∧
      ∃ entry ∈ list, Covers lowerRune entry (trimSpace host) ∧
        SameEnd (listItem lowerRune entry) (toLower lowerRune (trimSpace host)).toList

end Domains

section Names

variable {lowerRune : Char → Char} {a b : List Char}

theorem dropFinalDot_of_dot (h : a.getLast? = some '.') : dropFinalDot a ++ ['.'] = a := by
  rw [dropFinalDot, if_pos h]
  exact List.dropLast_append_getLast? '.' h

theorem dropFinalDot_of_no_dot (h : a.getLast? ≠ some '.') : dropFinalDot a = a := if_neg h

theorem SameEnd.eq_of_dropFinalDot (hend : SameEnd a b) (h : dropFinalDot a = dropFinalDot b) : a = b := by
  by_cases ha : a.getLast? = some '.'
  · rw [← dropFinalDot_of_dot ha, ← dropFinalDot_of_dot (hend.mp ha), h]
  · rwa [dropFinalDot_of_no_dot ha, dropFinalDot_of_no_dot fun hb => ha (hend.mpr hb)] at h

/-- A name below another one without the final dots is below it with them. -/
theorem SameEnd.suffix_of_dropFinalDot (hend : SameEnd a b) (h : ('.' :: dropFinalDot a) <:+ dropFinalDot b) :
    ('.' :: a) <:+ b := by
  obtain ⟨pre, hpre⟩ := h
  by_cases ha : a.getLast? = some '.'
  · refine ⟨pre, ?_⟩
    calc pre ++ '.' :: a
        = pre ++ '.' :: dropFinalDot a ++ ['.'] := by simp [dropFinalDot_of_dot ha]
      _ = dropFinalDot b ++ ['.'] := by rw [hpre]
      _ = b := dropFinalDot_of_dot (hend.mp ha)
  · rw [dropFinalDot_of_no_dot ha, dropFinalDot_of_no_dot fun hb => ha (hend.mpr hb)] at hpre
    exact ⟨pre, hpre⟩

variable {entry host : String}

/-- An entry that covers a host and ends as it does is one that the list check reads. -/
theorem itemMatches_of_covers (h : Covers lowerRune entry host)
    (hend : SameEnd (listItem lowerRune entry) (toLower lowerRune host).toList) :
    itemMatches (listItem lowerRune entry) (toLower lowerRune host).toList = true := by
  obtain ⟨-, hname | ⟨d, hitem, hd⟩⟩ := h
  · have heq := hend.eq_of_dropFinalDot hname.symm
    simp [itemMatches, ← heq]
  · rw [hitem] at hend ⊢
    suffices hmatch : ('.' :: d) <:+ (toLower lowerRune host).toList ∨ (toLower lowerRune host).toList = d by
      simpa [itemMatches] using .inr hmatch
    cases d with
    | nil =>
      -- The entry is `*.`, which ends with a dot, and so does the host.
      have hdot : (toLower lowerRune host).toList.getLast? = some '.' := hend.mp rfl
      exact .inl ⟨_, dropFinalDot_of_dot hdot⟩
    | cons c d =>
      have hend' : SameEnd (c :: d) (toLower lowerRune host).toList := by
        simpa [SameEnd, List.getLast?_cons_cons] using hend
      rcases hd with hd | hd
      · exact .inr (hend'.eq_of_dropFinalDot hd.symm).symm
      · exact .inl (hend'.suffix_of_dropFinalDot hd)

theorem isDomainListed_of_covers {list : List String} (hmem : entry ∈ list) (h : Covers lowerRune entry host)
    (hend : SameEnd (listItem lowerRune entry) (toLower lowerRune host).toList) :
    isDomainListed lowerRune host list = true := by
  refine List.any_eq_true.mpr ⟨entry, hmem, ?_⟩
  rw [itemMatches_of_covers h hend, Bool.and_true]
  simpa using h.1

end Names

/-! ## What the configured ports stand for -/

/-- A port inside one configured entry, a single port or a range. -/
def InPortRange (config : String) (port : ℤ) : Prop :=
  ('-' ∉ config.toList ∧ atoi config = some port) ∨
    ∃ first second startPort endPort, config.toList.splitOn '-' = [first, second] ∧
      atoi (trimSpace (String.ofList first)) = some startPort ∧
      atoi (trimSpace (String.ofList second)) = some endPort ∧ startPort ≤ port ∧ port ≤ endPort

/-- Without an entry that is not blank every port may be dialed, otherwise only those in one of them. -/
def ConfiguredPort (s : FetchSetting) (port : ℤ) : Prop :=
  (∀ config ∈ s.allowedPorts, trimSpace config = "") ∨
    ∃ config ∈ s.allowedPorts, InPortRange (trimSpace config) port

theorem mem_portRange {startPort endPort port : ℤ}
    (h : port ∈ (List.range (endPort - startPort + 1).toNat).map fun k : ℕ => startPort + (k : ℤ)) :
    startPort ≤ port ∧ port ≤ endPort := by
  obtain ⟨k, hk, rfl⟩ := List.mem_map.mp h
  have := List.mem_range.mp hk
  omega

/-- An entry that is read is blank, or it gives ports, all inside it. -/
theorem parsePortRange_ok {config : String} {ports : List ℤ} (h : parsePortRange config = .ok ports) :
    (ports = [] → config = "") ∧ ∀ port ∈ ports, InPortRange config port := by
  unfold parsePortRange at h
  split at h
  · next hblank => cases h; exact ⟨fun _ => hblank, fun port hport => absurd hport List.not_mem_nil⟩
  split at h
  · split at h
    · next first second hparts =>
      split at h
      · cases h
      · cases h
      · next startPort endPort hstart hend =>
        split at h
        · cases h
        split at h
        · cases h
        · next horder _ =>
          cases h
          refine ⟨fun hnil => ?_, fun port hport => ?_⟩
          · have hlength := congrArg List.length hnil
            simp only [List.length_map, List.length_range, List.length_nil] at hlength
            omega
          · have hbounds := mem_portRange hport
            exact .inr ⟨first, second, startPort, endPort, hparts, hstart, hend, hbounds.1, hbounds.2⟩
    · cases h
  · next hdash =>
    split at h
    · cases h
    · next port hport =>
      split at h
      · cases h
      · cases h
        refine ⟨fun hnil => absurd hnil (List.cons_ne_nil _ _), fun q hq => ?_⟩
        obtain rfl := List.mem_singleton.mp hq
        exact .inl ⟨hdash, hport⟩

theorem parsePortRanges_ok {configs : List String} {ports : List ℤ} (h : parsePortRanges configs = .ok ports) :
    (ports = [] → ∀ config ∈ configs, trimSpace config = "") ∧
      ∀ port ∈ ports, ∃ config ∈ configs, InPortRange (trimSpace config) port := by
  induction configs generalizing ports with
  | nil => cases h; simp
  | cons config configs ih =>
    obtain ⟨first, hfirst, h⟩ := except_bind_ok h
    obtain ⟨more, hmore, h⟩ := except_bind_ok h
    cases h
    obtain ⟨hblank, hin⟩ := parsePortRange_ok hfirst
    obtain ⟨hblanks, hins⟩ := ih hmore
    refine ⟨fun hnil => ?_, fun port hport => ?_⟩
    · obtain ⟨hnil₁, hnil₂⟩ := List.append_eq_nil_iff.mp hnil
      exact List.forall_mem_cons.mpr ⟨hblank hnil₁, hblanks hnil₂⟩
    · rcases List.mem_append.mp hport with hport | hport
      · exact ⟨config, List.mem_cons_self, hin port hport⟩
      · obtain ⟨c, hc, hr⟩ := hins port hport
        exact ⟨c, List.mem_cons_of_mem config hc, hr⟩

/-! ## What a check promises -/

section Checks

variable {lowerRune : Char → Char} {p : SSRFProtection} {host : String} {port : ℤ}

/-- A target that passes is an allowed port at an allowed address or at an allowed domain. -/
theorem validateNetworkTarget_ok (h : p.validateNetworkTarget lowerRune host port = .ok ()) :
    p.isAllowedPort port = true ∧ (∀ ip, parseIP (trimSpace host) = some ip → p.isIPAccessAllowed ip = true) ∧
      (parseIP (trimSpace host) = none → p.isDomainAllowed lowerRune (trimSpace host) = true) := by
  dsimp only [SSRFProtection.validateNetworkTarget] at h
  split at h
  · cases h
  split at h
  · cases h
  split at h
  · cases h
  next hport =>
    refine ⟨by simpa using hport, ?_⟩
    split at h
    · next ip hip =>
      split at h
      · next hallowed => simp [hip, hallowed]
      · cases h
    · next hip =>
      split at h
      · next hallowed => simp [hip, hallowed]
      · split at h <;> cases h

theorem isAllowedPort_iff : p.isAllowedPort port = true ↔ p.allowedPorts = [] ∨ port ∈ p.allowedPorts := by
  simp [SSRFProtection.isAllowedPort]

theorem currentFetchProtection_ok {s : FetchSetting} (h : currentFetchProtection s = .ok (some p)) :
    parsePortRanges s.allowedPorts = .ok p.allowedPorts ∧ p.domainFilterMode = s.domainFilterMode ∧
      p.domainList = s.domainList ∧ p.applyIPFilterForDomain = s.applyIPFilterForDomain := by
  unfold currentFetchProtection newSSRFProtectionFromFetchSetting at h
  split at h
  · cases hports : parsePortRanges s.allowedPorts with
    | error e => rw [hports] at h; cases h
    | ok ports => rw [hports] at h; cases h; exact ⟨rfl, rfl, rfl, rfl⟩
  · cases h

theorem configuredPort_of_isAllowedPort {s : FetchSetting} (h : currentFetchProtection s = .ok (some p))
    (hport : p.isAllowedPort port = true) : ConfiguredPort s port := by
  obtain ⟨hblank, hin⟩ := parsePortRanges_ok (currentFetchProtection_ok h).1
  exact (isAllowedPort_iff.mp hport).imp (hblank ·) (hin port)

/-- In blacklist mode no entry covers a host that passes, if hosts end as they are listed. -/
theorem not_covers_of_validateNetworkTarget (h : p.validateNetworkTarget lowerRune host port = .ok ())
    (hmode : p.domainFilterMode = false) (hends : EndsAsListed lowerRune p.domainList host) :
    ∀ entry ∈ p.domainList, ¬Covers lowerRune entry host := by
  intro entry hentry hcovers
  obtain ⟨hname, other, hother, hsame, hend⟩ := hends ⟨entry, hentry, hcovers⟩
  have hallowed := (validateNetworkTarget_ok h).2.2 hname
  have hlisted := isDomainListed_of_covers hother hsame hend
  simp [SSRFProtection.isDomainAllowed, hmode, hlisted] at hallowed

end Checks

end Vancine.ProtectedFetch
