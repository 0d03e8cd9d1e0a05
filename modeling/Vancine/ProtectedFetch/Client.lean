import Vancine.ProtectedFetch.Protection

/-!
# The protected client

A fetch is a chain of requests, the first one and those that redirects ask for. Each is checked by its URL, with one
lookup of its own, and each connection it needs is checked again when it is dialed, with another lookup.
-/

namespace Vancine.ProtectedFetch

open Lib

structure URL where
  scheme : String
  host : String
  deriving DecidableEq

/-- What is used from elsewhere: the table of lower-case letters, the ASCII form of an international name, and
`url.Parse` of `URL.String`. -/
structure Library where
  lowerRune : Char → Char
  idnaToASCII : String → Option String
  reparse : URL → Option URL

/-! ## URLs -/

/-- `validOptionalPort`. -/
def validOptionalPort : List Char → Bool
  | [] => true
  | ':' :: digits => digits.all Char.isDigit
  | _ => false

/-- `splitHostPort` of `net/url`: the host without its brackets, and the port. -/
def splitOptionalPort (hostPort : String) : String × String :=
  let s := hostPort.toList
  let tail := (s.reverse.takeWhile (· ≠ ':')).reverse
  let before := (s.reverse.dropWhile (· ≠ ':')).reverse.dropLast
  let (host, port) := if ':' ∈ s ∧ validOptionalPort (':' :: tail) then (before, tail) else (s, [])
  let inner := if host.head? = some '[' ∧ host.getLast? = some ']' then host.tail.dropLast else host
  (String.ofList inner, String.ofList port)

def URL.hostname (u : URL) : String := (splitOptionalPort u.host).1

def URL.port (u : URL) : String := (splitOptionalPort u.host).2

def defaultPort (scheme : String) : String := if scheme = "https" then "443" else "80"

section Client

variable (lib : Library)

/-- `idnaASCIIFromURL`. -/
def idnaASCII (host : String) : String :=
  if host.toList.all (·.toNat < 128) then host else (lib.idnaToASCII host).getD host

/-- `canonicalAddr`, the address the transport dials for a URL. -/
def canonicalAddr (u : URL) : String :=
  joinHostPort (idnaASCII lib u.hostname) (if u.port = "" then defaultPort u.scheme else u.port)

/-- The answers of one lookup; none when it fails. -/
abbrev Answers := Option (List IP)

/-- `ValidateURL` of the text of a URL. -/
def SSRFProtection.validateURL (p : SSRFProtection) (url : URL) (answers : Answers) : Except FetchError Unit :=
  match lib.reparse url with
  | none => .error .invalidURL
  | some u =>
    if u.scheme ≠ "http" ∧ u.scheme ≠ "https" then .error (.unsupportedProtocol u.scheme)
    else
      let target := (splitHostPort u.host).getD (u.hostname, defaultPort u.scheme)
      match atoi target.2 with
      | none => .error (.invalidPortText target.2)
      | some port => do
        p.validateNetworkTarget lib.lowerRune target.1 port
        if (parseIP target.1).isSome || !p.applyIPFilterForDomain then return ()
        match answers with
        | none => .error (.resolutionFailed target.1)
        | some ips => ips.forM (p.validateResolvedIP target.1)

/-- `ValidateSSRFProtectedFetchURL`. -/
def validateSSRFProtectedFetchURL (s : FetchSetting) (url : URL) (answers : Answers) : Except FetchError Unit := do
  match ← currentFetchProtection s with
  | none => return ()
  | some p => p.validateURL lib url answers

/-! ## Dialing -/

/-- One call of `DialContext`: its network, what the resolver answers then (an address may be missing), and which
addresses accept a connection. -/
structure DialCall where
  network : String
  answers : Option (List (Option IP))
  connects : String → Bool

def networkAllowsIP (network : String) (ip : IP) : Bool :=
  if network = "tcp4" then ip.to4.isSome
  else if network = "tcp6" then ip.to4.isNone
  else true

/-- The addresses that one call passes on to the network's dialer, and how the call ends. -/
structure Dialed where
  addresses : List String
  result : Except FetchError Unit

/-- The addresses of a lookup that can be dialed; an error when one of them must not be. -/
def candidateIPs (p : SSRFProtection) (network host : String) : List (Option IP) → Except FetchError (List IP)
  | [] => .ok []
  | none :: rest => candidateIPs p network host rest
  | some ip :: rest =>
    if networkAllowsIP network ip then do
      p.validateResolvedIP host ip
      let ips ← candidateIPs p network host rest
      return ip :: ips
    else candidateIPs p network host rest

/-- The addresses are tried in order until one accepts. -/
def dialEach (connects : String → Bool) (failure : FetchError) : List String → Dialed
  | [] => ⟨[], .error failure⟩
  | address :: rest =>
    if connects address then ⟨[address], .ok ()⟩
    else
      let later := dialEach connects (.dialFailed address) rest
      ⟨address :: later.addresses, later.result⟩

/-- `protectedFetchDialer.DialContext`. -/
def dialContext (s : FetchSetting) (call : DialCall) (addr : String) : Dialed :=
  match currentFetchProtection s with
  | .error e => ⟨[], .error e⟩
  | .ok none => dialEach call.connects (.dialFailed addr) [addr]
  | .ok (some p) =>
    match splitHostPort addr with
    | none => ⟨[], .error (.invalidDialAddress addr)⟩
    | some (host, portText) =>
      match atoi portText with
      | none => ⟨[], .error (.invalidPortText portText)⟩
      | some port =>
        match p.validateNetworkTarget lib.lowerRune host port with
        | .error e => ⟨[], .error e⟩
        | .ok () =>
          match parseIP host with
          | some ip => dialEach call.connects (.noUsableIP host) [joinHostPort ip.string portText]
          | none =>
            if !p.applyIPFilterForDomain then dialEach call.connects (.noUsableIP host) [addr]
            else
              match call.answers with
              | none => ⟨[], .error (.resolutionFailed host)⟩
              | some resolved =>
                match candidateIPs p call.network host resolved with
                | .error e => ⟨[], .error e⟩
                | .ok ips =>
                  dialEach call.connects (.noUsableIP host) (ips.map fun ip => joinHostPort ip.string portText)

/-! ## Requests and redirects -/

/-- One request of a chain: its URL, the answers of the lookups of both checks, the address of the proxy for it, and the
dial calls the transport makes for it. -/
structure Exchange where
  url : URL
  redirectAnswers : Answers
  requestAnswers : Answers
  proxy : Except FetchError (Option String)
  calls : List DialCall

/-- A dial call with the address the transport asked for and those that were dialed. -/
structure Attempt where
  addr : String
  call : DialCall
  dialed : List String

/-- `ssrfProtectedRoundTripper.RoundTrip`, with the dial calls of its transport. -/
def roundTrip (s : FetchSetting) (ex : Exchange) : Except FetchError (List Attempt) := do
  validateSSRFProtectedFetchURL lib s ex.url ex.requestAnswers
  match ← ex.proxy with
  | some proxy => return ex.calls.map fun call => ⟨proxy, call, [proxy]⟩
  | none =>
    return ex.calls.map fun call =>
      ⟨canonicalAddr lib ex.url, call, (dialContext lib s call (canonicalAddr lib ex.url)).addresses⟩

/-- `checkProtectedFetchRedirect` after `via` requests. -/
def checkProtectedFetchRedirect (s : FetchSetting) (ex : Exchange) (via : ℕ) : Except FetchError Unit := do
  validateSSRFProtectedFetchURL lib s ex.url ex.redirectAnswers
  if 10 ≤ via then .error .tooManyRedirects else .ok ()

/-- The redirects that are followed, after `via` requests. -/
def followRedirects (s : FetchSetting) : ℕ → List Exchange → List Attempt
  | _, [] => []
  | via, ex :: rest =>
    match checkProtectedFetchRedirect lib s ex via, roundTrip lib s ex with
    | .ok (), .ok attempts => attempts ++ followRedirects s (via + 1) rest
    | _, _ => []

/-- A fetch of the first URL of the chain, redirected to the next ones. -/
def fetch (s : FetchSetting) : List Exchange → List Attempt
  | [] => []
  | ex :: rest =>
    match roundTrip lib s ex with
    | .ok attempts => attempts ++ followRedirects lib s 1 rest
    | .error _ => []

end Client

/-! ## What is dialed -/

/-- The text dialed for a host is an allowed address and a configured port, and in blacklist mode no entry of the list
covers the host. -/
structure Permitted (lib : Library) (s : FetchSetting) (p : SSRFProtection) (host address : String) : Prop where
  literal : ∃ ip portText port, address = joinHostPort ip.string portText ∧ atoi portText = some port ∧
    p.isIPAccessAllowed ip = true ∧ ConfiguredPort s port
  unlisted : s.domainFilterMode = false → ∀ entry ∈ s.domainList, ¬Covers lib.lowerRune entry host

/-- Everything that one attempt dials is permitted for its host, and a forbidden answer keeps it from dialing. -/
structure Guarded (lib : Library) (s : FetchSetting) (a : Attempt) : Prop where
  permitted : ∀ address ∈ a.dialed, ∃ p host portText, currentFetchProtection s = .ok (some p) ∧
    splitHostPort a.addr = some (host, portText) ∧ Permitted lib s p host address
  refused : ∀ p host portText, currentFetchProtection s = .ok (some p) → splitHostPort a.addr = some (host, portText) →
    parseIP host = none → ∀ answers, a.call.answers = some answers → ∀ ip, some ip ∈ answers →
      networkAllowsIP a.call.network ip = true → p.isIPAccessAllowed ip = false → a.dialed = []

/-- The host that is dialed for a URL ends as the domain list has it. -/
def EndsAsConfigured (lib : Library) (s : FetchSetting) (url : URL) : Prop :=
  s.domainFilterMode = false → ∀ host portText, splitHostPort (canonicalAddr lib url) = some (host, portText) →
    EndsAsListed lib.lowerRune s.domainList host

section Dialing

variable {lib : Library} {s : FetchSetting} {p : SSRFProtection}

theorem mem_of_dialEach {connects : String → Bool} {failure : FetchError} {addresses : List String} {address : String}
    (h : address ∈ (dialEach connects failure addresses).addresses) : address ∈ addresses := by
  induction addresses generalizing failure with
  | nil => exact h
  | cons a rest ih =>
    dsimp only [dialEach] at h
    split at h
    · exact List.mem_singleton.mp h ▸ List.mem_cons_self
    · rcases List.mem_cons.mp h with rfl | h
      · exact List.mem_cons_self
      · exact List.mem_cons_of_mem a (ih h)

theorem validateResolvedIP_ok {host : String} {ip : IP} {u : Unit} (h : p.validateResolvedIP host ip = .ok u) :
    p.isIPAccessAllowed ip = true := by
  unfold SSRFProtection.validateResolvedIP at h
  split at h
  · assumption
  · cases h

/-- The candidates are allowed, and so is every answer that fits the network. -/
theorem candidateIPs_ok {network host : String} {resolved : List (Option IP)} {ips : List IP}
    (h : candidateIPs p network host resolved = .ok ips) : (∀ ip ∈ ips, p.isIPAccessAllowed ip = true) ∧
      ∀ ip, some ip ∈ resolved → networkAllowsIP network ip = true → p.isIPAccessAllowed ip = true := by
  induction resolved generalizing ips with
  | nil => cases h; simp
  | cons answer rest ih =>
    cases answer with
    | none => simpa using ih h
    | some first =>
      rw [candidateIPs] at h
      split at h
      · obtain ⟨u, hfirst, h⟩ := except_bind_ok h
        obtain ⟨more, hmore, h⟩ := except_bind_ok h
        cases h
        have hallowed := validateResolvedIP_ok hfirst
        obtain ⟨hips, hrest⟩ := ih hmore
        refine ⟨List.forall_mem_cons.mpr ⟨hallowed, hips⟩, fun ip hip hfits => ?_⟩
        rcases List.mem_cons.mp hip with hip | hip
        · exact Option.some.inj hip ▸ hallowed
        · exact hrest ip hip hfits
      · next hfit =>
        obtain ⟨hips, hrest⟩ := ih h
        refine ⟨hips, fun ip hip hfits => ?_⟩
        rcases List.mem_cons.mp hip with hip | hip
        · exact absurd (Option.some.inj hip ▸ hfits) hfit
        · exact hrest ip hip hfits

/-- What a dialed address has passed: the target was checked, and the address is the host itself or a candidate of the
lookup. -/
theorem dialContext_inv {call : DialCall} {addr address : String} (hon : s.enableSSRFProtection = true)
    (hfilter : s.applyIPFilterForDomain = true) (h : address ∈ (dialContext lib s call addr).addresses) :
    ∃ p host portText port, currentFetchProtection s = .ok (some p) ∧ splitHostPort addr = some (host, portText) ∧
      atoi portText = some port ∧ p.validateNetworkTarget lib.lowerRune host port = .ok () ∧
      ∃ ip, address = joinHostPort ip.string portText ∧ (parseIP host = some ip ∨
          ∃ answers ips, parseIP host = none ∧ call.answers = some answers ∧
            candidateIPs p call.network host answers = .ok ips ∧ ip ∈ ips) := by
  unfold dialContext at h
  split at h
  · cases h
  · next hoff =>
    unfold currentFetchProtection at hoff
    rw [if_pos hon] at hoff
    obtain ⟨p, -, hp⟩ := except_bind_ok (f := fun p => Except.ok (some p)) hoff
    cases hp
  next p hp =>
  split at h
  · cases h
  next host portText hsplit =>
  split at h
  · cases h
  next port hport =>
  split at h
  · cases h
  next htarget =>
  refine ⟨p, host, portText, port, hp, hsplit, hport, htarget, ?_⟩
  split at h
  · next ip hip => exact ⟨ip, List.mem_singleton.mp (mem_of_dialEach h), .inl hip⟩
  next hip =>
  rw [(currentFetchProtection_ok hp).2.2.2, hfilter] at h
  split at h
  · next hoff => cases hoff
  split at h
  · cases h
  next answers hanswers =>
  split at h
  · cases h
  next ips hips =>
  obtain ⟨ip, hmem, rfl⟩ := List.mem_map.mp (mem_of_dialEach h)
  exact ⟨ip, rfl, .inr ⟨answers, ips, hip, hanswers, hips, hmem⟩⟩

theorem dialContext_guarded {call : DialCall} {addr : String} (hon : s.enableSSRFProtection = true)
    (hfilter : s.applyIPFilterForDomain = true)
    (hends : s.domainFilterMode = false → ∀ host portText, splitHostPort addr = some (host, portText) →
      EndsAsListed lib.lowerRune s.domainList host) :
    Guarded lib s ⟨addr, call, (dialContext lib s call addr).addresses⟩ where
  permitted := by
    intro address haddress
    obtain ⟨p, host, portText, port, hp, hsplit, hport, htarget, ip, rfl, hip⟩ := dialContext_inv hon hfilter haddress
    obtain ⟨-, hmode, hlist, -⟩ := currentFetchProtection_ok hp
    have hchecked := validateNetworkTarget_ok htarget
    refine ⟨p, host, portText, hp, hsplit, ⟨ip, portText, port, rfl, hport, ?_, ?_⟩, fun hblack => ?_⟩
    · rcases hip with hip | ⟨answers, ips, -, -, hips, hmem⟩
      · exact hchecked.2.1 ip (by rwa [trimSpace_of_parseIP hip])
      · exact (candidateIPs_ok hips).1 ip hmem
    · exact configuredPort_of_isAllowedPort hp hchecked.1
    · rw [← hlist]
      exact not_covers_of_validateNetworkTarget htarget (hmode.trans hblack)
        (hlist ▸ hends hblack host portText hsplit)
  refused := by
    intro p host portText hp hsplit hname answers hanswers ip hmem hfits hforbidden
    refine List.eq_nil_iff_forall_not_mem.mpr fun address haddress => ?_
    obtain ⟨p', host', portText', port, hp', hsplit', -, -, ip', -, hip'⟩ := dialContext_inv hon hfilter haddress
    obtain rfl : p = p' := Option.some.inj (Except.ok.inj (hp.symm.trans hp'))
    obtain ⟨rfl, rfl⟩ : host = host' ∧ portText = portText' :=
      Prod.mk.inj (Option.some.inj (hsplit.symm.trans hsplit'))
    rcases hip' with hip' | ⟨answers', ips, -, hanswers', hips, -⟩
    · cases hname.symm.trans hip'
    · obtain rfl : answers = answers' := Option.some.inj (hanswers.symm.trans hanswers')
      exact Bool.false_ne_true (hforbidden.symm.trans ((candidateIPs_ok hips).2 ip hmem hfits))

theorem roundTrip_guarded {ex : Exchange} {attempts : List Attempt} (hon : s.enableSSRFProtection = true)
    (hfilter : s.applyIPFilterForDomain = true) (hproxy : ex.proxy = .ok none) (hends : EndsAsConfigured lib s ex.url)
    (h : roundTrip lib s ex = .ok attempts) : ∀ a ∈ attempts, Guarded lib s a := by
  obtain ⟨u, -, h⟩ := except_bind_ok h
  obtain ⟨proxy, hp, h⟩ := except_bind_ok h
  obtain rfl : none = proxy := Except.ok.inj (hproxy.symm.trans hp)
  cases h
  intro a ha
  obtain ⟨call, -, rfl⟩ := List.mem_map.mp ha
  exact dialContext_guarded hon hfilter hends

theorem followRedirects_guarded (hon : s.enableSSRFProtection = true) (hfilter : s.applyIPFilterForDomain = true)
    (chain : List Exchange) (via : ℕ) (hproxy : ∀ ex ∈ chain, ex.proxy = .ok none)
    (hends : ∀ ex ∈ chain, EndsAsConfigured lib s ex.url) : ∀ a ∈ followRedirects lib s via chain, Guarded lib s a := by
  induction chain generalizing via with
  | nil => exact fun a ha => absurd ha List.not_mem_nil
  | cons ex rest ih =>
    obtain ⟨hproxy₁, hproxy₂⟩ := List.forall_mem_cons.mp hproxy
    obtain ⟨hends₁, hends₂⟩ := List.forall_mem_cons.mp hends
    intro a ha
    rw [followRedirects] at ha
    split at ha
    · next attempts _ hattempts =>
      rcases List.mem_append.mp ha with ha | ha
      · exact roundTrip_guarded hon hfilter hproxy₁ hends₁ hattempts a ha
      · exact ih (via + 1) hproxy₂ hends₂ a ha
    · exact absurd ha List.not_mem_nil

end Dialing

/-- Over every chain of redirects, with answers that may differ at each lookup: only allowed addresses and configured
ports are dialed, a forbidden answer keeps its call from dialing, and no host of the blacklist is reached, provided that
the hosts end as they are listed. -/
theorem fetch_guarded (lib : Library) (s : FetchSetting) (chain : List Exchange) (hon : s.enableSSRFProtection = true)
    (hfilter : s.applyIPFilterForDomain = true) (hproxy : ∀ ex ∈ chain, ex.proxy = .ok none)
    (hends : ∀ ex ∈ chain, EndsAsConfigured lib s ex.url) : ∀ a ∈ fetch lib s chain, Guarded lib s a := by
  cases chain with
  | nil => exact fun a ha => absurd ha List.not_mem_nil
  | cons ex rest =>
    obtain ⟨hproxy₁, hproxy₂⟩ := List.forall_mem_cons.mp hproxy
    obtain ⟨hends₁, hends₂⟩ := List.forall_mem_cons.mp hends
    intro a ha
    rw [fetch] at ha
    split at ha
    · next attempts hattempts =>
      rcases List.mem_append.mp ha with ha | ha
      · exact roundTrip_guarded hon hfilter hproxy₁ hends₁ hattempts a ha
      · exact followRedirects_guarded hon hfilter rest 1 hproxy₂ hends₂ a ha
    · exact absurd ha List.not_mem_nil

/-! ## A final dot -/

def asciiLibrary : Library := ⟨id, some, some⟩

/-- `evil.com` is blocked, for web ports only. -/
def blacklistSetting : FetchSetting where
  enableSSRFProtection := true
  allowPrivateIp := false
  domainFilterMode := false
  ipFilterMode := false
  domainList := ["evil.com"]
  ipList := []
  allowedPorts := ["80", "440-443"]
  applyIPFilterForDomain := true

/-- A request whose lookups all answer with one public address. -/
def publicExchange (host : String) : Exchange where
  url := ⟨"http", host⟩
  redirectAnswers := some [.ofV4 0x5db8d822]
  requestAnswers := some [.ofV4 0x5db8d822]
  proxy := .ok none
  calls := [⟨"tcp", some [some (.ofV4 0x5db8d822)], fun _ => true⟩]

theorem endsAsConfigured_of_ne {u : URL} {host portText : String}
    (hsplit : splitHostPort (canonicalAddr asciiLibrary u) = some (host, portText))
    (hne : dropFinalDot (toLower id host).toList ≠ "evil.com".toList) :
    EndsAsConfigured asciiLibrary blacklistSetting u := by
  rintro - host' portText' hsplit' ⟨entry, hentry, -, hcovers⟩
  obtain ⟨rfl, rfl⟩ : host = host' ∧ portText = portText' :=
    Prod.mk.inj (Option.some.inj (hsplit.symm.trans hsplit'))
  obtain rfl : entry = "evil.com" := List.mem_singleton.mp hentry
  have hitem : listItem id "evil.com" = "evil.com".toList := by decide +kernel
  rcases hcovers with hname | ⟨d, hd, -⟩
  · exact absurd (hname.trans (by decide +kernel)) hne
  · cases hitem.symm.trans hd

/-- A redirect from one public host to another, with the port of the first one given. -/
theorem fetch_guarded_redirect :
    (fetch asciiLibrary blacklistSetting [publicExchange "a.example:443", publicExchange "b.example"]).map
        (·.dialed) = [["93.184.216.34:443"], ["93.184.216.34:80"]] ∧
      ∀ a ∈ fetch asciiLibrary blacklistSetting [publicExchange "a.example:443", publicExchange "b.example"],
        Guarded asciiLibrary blacklistSetting a := by
  refine ⟨by decide +kernel, fetch_guarded _ _ _ rfl rfl (by simp [publicExchange]) ?_⟩
  have hfirst := @endsAsConfigured_of_ne ⟨"http", "a.example:443"⟩ "a.example" "443" (by decide)
    (by decide)
  have hsecond := @endsAsConfigured_of_ne ⟨"http", "b.example"⟩ "b.example" "80" (by decide)
    (by decide)
  exact List.forall_mem_cons.mpr ⟨hfirst, List.forall_mem_singleton.mpr hsecond⟩

/-- The name with a final dot is not the one on the list, but it is resolved to the same host, and that is dialed. -/
theorem final_dot_passes_blacklist :
    ¬∀ (lib : Library) (s : FetchSetting) (chain : List Exchange), s.enableSSRFProtection = true →
      s.applyIPFilterForDomain = true → (∀ ex ∈ chain, ex.proxy = .ok none) →
      ∀ a ∈ fetch lib s chain, Guarded lib s a := by
  intro h
  have hdialed : (fetch asciiLibrary blacklistSetting [publicExchange "evil.com."]).map
      (fun a => (a.addr, a.dialed)) = [("evil.com.:80", ["93.184.216.34:80"])] := by
    decide +kernel
  obtain ⟨a, hfetch, ha⟩ := List.map_eq_singleton_iff.mp hdialed
  obtain ⟨haddr, haddresses⟩ := Prod.mk.inj ha
  have hguarded := h asciiLibrary blacklistSetting [publicExchange "evil.com."] rfl rfl
    (by simp [publicExchange]) a (hfetch ▸ List.mem_singleton_self a)
  obtain ⟨p, host, portText, -, hsplit, hpermitted⟩ :=
    hguarded.permitted "93.184.216.34:80" (haddresses ▸ List.mem_singleton_self _)
  have hhost : splitHostPort "evil.com.:80" = some ("evil.com.", "80") := by decide
  rw [haddr, hhost] at hsplit
  obtain ⟨rfl, rfl⟩ : "evil.com." = host ∧ "80" = portText := Prod.mk.inj (Option.some.inj hsplit)
  exact hpermitted.unlisted rfl "evil.com" (List.mem_singleton_self _) ⟨by decide +kernel, .inl (by decide +kernel)⟩

end Vancine.ProtectedFetch
