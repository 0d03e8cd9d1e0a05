import Vancine.ProtectedFetch.Client

/-!
# Where plugin requests may go

A plugin may send the credential of its channel to the host of the channel's base URL and to the hosts that its meta
lists. Hosts are compared as texts without the default port of their own scheme. That compares endpoints unless the
request and the base URL have different schemes and a default port is left out of either.
-/

namespace Vancine.JsPlugin

open Lib (trimSpace isSpace isSpace_toNat trimSpace_of_no_space)
open ProtectedFetch

section Model

variable (lowerRune : Char → Char) (parse : String → Option URL)

def canonicalHost (value : URL) : String :=
  let host := toLower lowerRune value.hostname
  let port := value.port
  if port = "" ∨ port = "80" ∧ value.scheme = "http" ∨ port = "443" ∧ value.scheme = "https" then host
  else joinHostPort host port

inductive RequestURLError
  | notAbsolute
  | invalidBaseURL
  | hostNotAllowed (host : String)

/-- `url.Parse` is `parse`. -/
def validateRequestURL (requestURL baseURL : String) (allowedHosts : List String) : Except RequestURLError Unit :=
  match parse requestURL with
  | none => .error .notAbsolute
  | some request =>
    if request.scheme = "" ∨ request.host = "" then .error .notAbsolute
    else
      match parse baseURL with
      | none => .error .invalidBaseURL
      | some base =>
        if base.host = "" then .error .invalidBaseURL
        else
          let requestHost := canonicalHost lowerRune request
          let allowed (entry : String) : Bool :=
            match parse (request.scheme ++ "://" ++ trimSpace entry) with
            | some allowedURL => requestHost = canonicalHost lowerRune allowedURL
            | none => false
          if requestHost = canonicalHost lowerRune base ∨ allowedHosts.any allowed then .ok ()
          else .error (.hostNotAllowed request.host)

inductive AllowedHostError
  | notAHostname
  | notASCII
  | unbracketed
  | invalidPort

/-- The name and the port of an entry. -/
def entryParts (entry : String) : String × String :=
  match splitHostPort entry with
  | some parts => parts
  | none =>
    match entry.toList with
    | '[' :: rest => if rest.getLast? = some ']' then (String.ofList rest.dropLast, "") else (entry, "")
    | _ => (entry, "")

/-- `unicode.IsControl` of a character in ASCII. -/
def isControl (c : Char) : Bool := c.toNat < 32 || c.toNat = 127

/-- An IPv6 address is written in brackets. -/
def bracketed (host : String) : String := if host.toList.contains ':' then "[" ++ host ++ "]" else host

def withPort (host port : String) : Except AllowedHostError String :=
  if port = "" then .ok host
  else
    match atoi port with
    | some number => if 1 ≤ number ∧ number ≤ 65535 then .ok (host ++ ":" ++ port) else .error .invalidPort
    | none => .error .invalidPort

def normalizeAllowedHost (raw : String) : Except AllowedHostError String :=
  let entry := trimSpace raw
  if entry = "" ∨ entry.toList.any (· ∈ ['/', '?', '#', '@']) then .error .notAHostname
  else
    let (host, port) := entryParts entry
    if host = "" then .error .notAHostname
    else if host.toList.any fun c => 127 < c.toNat || isSpace c || isControl c then .error .notASCII
    else
      let host := toLower lowerRune host
      if host.toList.contains ':' && (parseIP host).isNone then .error .unbracketed
      else withPort (bracketed host) port

end Model

/-! ## Endpoints -/

/-- The port that a URL of the scheme has when it names none. -/
def schemePort (scheme : String) : String :=
  if scheme = "http" then "80" else if scheme = "https" then "443" else ""

def effectivePort (scheme : String) (value : URL) : String := if value.port = "" then schemePort scheme else value.port

/-- What the documentation of `net/url` says: a host name has no brackets, and no colons but those of an IPv6 address,
which has two or more; the scheme that a text begins with is the one of its URL. -/
structure NetURL (lowerRune : Char → Char) (parse : String → Option URL) : Prop where
  bracket : ∀ text u, parse text = some u → '[' ∉ (toLower lowerRune u.hostname).toList
  colons : ∀ text u, parse text = some u → (toLower lowerRune u.hostname).toList.count ':' ≠ 1
  scheme : ∀ text u rest v, parse text = some u → parse (u.scheme ++ "://" ++ rest) = some v → v.scheme = u.scheme

section Canonical

variable {lowerRune : Char → Char} {parse : String → Option URL}

theorem colon_not_mem_port (u : URL) : ':' ∉ u.port.toList := by
  have htail : ':' ∉ (u.host.toList.reverse.takeWhile (· ≠ ':')).reverse := by
    intro h
    simpa using List.mem_takeWhile_imp (List.mem_reverse.mp h)
  simp only [URL.port, splitOptionalPort, String.toList_ofList]
  split
  · exact htail
  · exact List.not_mem_nil

theorem append_colon_inj {x x' p p' : List Char} (hp : ':' ∉ p) (hp' : ':' ∉ p') (h : x ++ ':' :: p = x' ++ ':' :: p') :
    x = x' ∧ p = p' := by
  have htake : ∀ {x p : List Char}, ':' ∉ p → (x ++ ':' :: p).rtakeWhile (· ≠ ':') = p := by
    intro x p hp
    rw [List.rtakeWhile, List.reverse_append, List.reverse_cons, List.append_assoc,
      List.takeWhile_append_of_pos fun c hc => by
        have hne : c ≠ ':' := fun h => hp (List.mem_reverse.mp (h ▸ hc))
        simpa using hne]
    simp
  have hport : p = p' := by rw [← htake (x := x) hp, h, htake hp']
  subst hport
  exact ⟨List.append_cancel_right h, rfl⟩

theorem toList_joinHostPort (h p : String) : (joinHostPort h p).toList =
    (if ':' ∈ h.toList ∨ '%' ∈ h.toList then '[' :: (h.toList ++ [']']) else h.toList) ++ ':' :: p.toList := by
  rw [joinHostPort]
  split <;> simp

theorem joinHostPort_inj {h h' p p' : String} (hp : ':' ∉ p.toList) (hp' : ':' ∉ p'.toList)
    (heq : joinHostPort h p = joinHostPort h' p') : h = h' ∧ p = p' := by
  have hlist := congrArg String.toList heq
  rw [toList_joinHostPort, toList_joinHostPort] at hlist
  obtain ⟨hhost, hport⟩ := append_colon_inj hp hp' hlist
  refine ⟨String.toList_injective ?_, String.toList_injective hport⟩
  -- brackets around one name only would put its colon or percent sign into the other
  split at hhost
  · next hh =>
    split at hhost
    · exact List.append_cancel_right (List.cons.inj hhost).2
    · next hh' =>
      refine absurd ?_ hh'
      rw [← hhost]
      simpa using hh
  · next hh =>
    split at hhost
    · next hh' =>
      refine absurd ?_ hh
      rw [hhost]
      simpa using hh'
    · exact hhost

theorem ne_joinHostPort {h h' p : String} (hbracket : '[' ∉ h.toList) (hcolons : h.toList.count ':' ≠ 1)
    (hp : ':' ∉ p.toList) : h ≠ joinHostPort h' p := by
  intro heq
  rw [heq, toList_joinHostPort] at hbracket hcolons
  split at hcolons
  · next hh =>
    rw [if_pos hh] at hbracket
    exact hbracket List.mem_cons_self
  · next hh =>
    rw [not_or] at hh
    refine hcolons ?_
    rw [List.count_append, List.count_cons_self, List.count_eq_zero.mpr hh.1, List.count_eq_zero.mpr hp]

/-- A URL whose port is the one of its scheme, named or not. -/
def OnSchemePort (u : URL) : Prop := effectivePort u.scheme u = schemePort u.scheme

instance (u : URL) : Decidable (OnSchemePort u) := inferInstanceAs (Decidable (_ = _))

theorem colon_not_mem_effectivePort (u : URL) : ':' ∉ (effectivePort u.scheme u).toList := by
  unfold effectivePort schemePort
  split_ifs
  · decide
  · decide
  · decide
  · exact colon_not_mem_port u

theorem canonicalHost_eq (u : URL) : canonicalHost lowerRune u = if OnSchemePort u then toLower lowerRune u.hostname
    else joinHostPort (toLower lowerRune u.hostname) (effectivePort u.scheme u) := by
  have hiff : OnSchemePort u ↔
      u.port = "" ∨ u.port = "80" ∧ u.scheme = "http" ∨ u.port = "443" ∧ u.scheme = "https" := by
    unfold OnSchemePort effectivePort schemePort
    by_cases hport : u.port = ""
    · simp [hport]
    · by_cases hhttp : u.scheme = "http"
      · simp [hport, hhttp]
      · by_cases hhttps : u.scheme = "https" <;> simp [hport, hhttp, hhttps]
  unfold canonicalHost
  by_cases hdefault : OnSchemePort u
  · rw [if_pos hdefault, if_pos (hiff.mp hdefault)]
  · have hport : u.port ≠ "" := fun h => hdefault (hiff.mpr (Or.inl h))
    rw [if_neg hdefault, if_neg (mt hiff.mpr hdefault), effectivePort, if_neg hport]

theorem canonicalHost_eq_iff (hurl : NetURL lowerRune parse) {s t : String} {u v : URL} (hu : parse s = some u)
    (hv : parse t = some v) : canonicalHost lowerRune u = canonicalHost lowerRune v ↔
      toLower lowerRune u.hostname = toLower lowerRune v.hostname ∧ (OnSchemePort u ∧ OnSchemePort v ∨
          ¬OnSchemePort u ∧ ¬OnSchemePort v ∧ effectivePort u.scheme u = effectivePort v.scheme v) := by
  have hne : ∀ {s : String} {u v : URL}, parse s = some u → toLower lowerRune u.hostname ≠
      joinHostPort (toLower lowerRune v.hostname) (effectivePort v.scheme v) := fun hu =>
    ne_joinHostPort (hurl.bracket _ _ hu) (hurl.colons _ _ hu) (colon_not_mem_effectivePort _)
  rw [canonicalHost_eq, canonicalHost_eq]
  by_cases hud : OnSchemePort u <;> by_cases hvd : OnSchemePort v
  · simp [hud, hvd]
  · simp [hud, hvd, hne hu]
  · simp [hud, hvd, (hne hv).symm]
  · rw [if_neg hud, if_neg hvd]
    constructor
    · intro h
      obtain ⟨hhost, hport⟩ :=
        joinHostPort_inj (colon_not_mem_effectivePort u) (colon_not_mem_effectivePort v) h
      exact ⟨hhost, Or.inr ⟨hud, hvd, hport⟩⟩
    · rintro ⟨hhost, ⟨h, -⟩ | ⟨-, -, hport⟩⟩
      · exact absurd h hud
      · rw [hhost, hport]

end Canonical

/-! ## Entries -/

section Entries

variable {lowerRune : Char → Char}

theorem isSpace_lower {c : Char} (hascii : c.toNat < 128) (hc : isSpace c = false) : isSpace c.toLower = false := by
  have hall : ∀ n < 128, isSpace (Char.ofNat n) = false → isSpace (Char.ofNat n).toLower = false := by decide
  have hthis := hall c.toNat hascii
  rw [Char.ofNat_toNat] at hthis
  exact hthis hc

theorem isSpace_digit {c : Char} (h : c.isDigit = true) : isSpace c = false := by
  rw [Char.isDigit, Bool.and_eq_true, decide_eq_true_eq, decide_eq_true_eq] at h
  rw [← Bool.not_eq_true]
  intro hspace
  have hbounds := isSpace_toNat hspace
  have hlow : 48 ≤ c.toNat := h.1
  have hhigh : c.toNat ≤ 57 := h.2
  omega

theorem isSpace_of_atoi {port : String} {n : ℤ} (h : atoi port = some n) : ∀ c ∈ port.toList, isSpace c = false := by
  have hdigits : ∀ {t : List Char} {m : ℕ},
      (if t ≠ [] ∧ t.all Char.isDigit then some (digitsValue 10 decimal t) else none) = some m →
        ∀ c ∈ t, isSpace c = false := by
    intro t m ht c hc
    split at ht
    · next hall => exact isSpace_digit (List.all_eq_true.mp hall.2 c hc)
    · cases ht
  simp only [atoi] at h
  split at h
  · next t ht =>
    obtain ⟨m, hm, -⟩ := Option.bind_eq_some_iff.mp h
    rw [ht]
    exact List.forall_mem_cons.mpr ⟨by decide, hdigits hm⟩
  · next t ht =>
    obtain ⟨m, hm, -⟩ := Option.bind_eq_some_iff.mp h
    rw [ht]
    exact List.forall_mem_cons.mpr ⟨by decide, hdigits hm⟩
  · obtain ⟨m, hm, -⟩ := Option.bind_eq_some_iff.mp h
    exact hdigits hm

theorem isSpace_toLower {host : String}
    (h : ¬(host.toList.any fun c => 127 < c.toNat || isSpace c || isControl c) = true) :
    ∀ c ∈ (toLower lowerRune host).toList, isSpace c = false := by
  intro c hc
  rw [toLower, String.toList_ofList, List.mem_map] at hc
  obtain ⟨d, hd, rfl⟩ := hc
  have hthis : ¬(127 < d.toNat || isSpace d || isControl d) = true := fun hany => h (List.any_eq_true.mpr ⟨d, hd, hany⟩)
  simp only [Bool.or_eq_true, decide_eq_true_eq, not_or, Bool.not_eq_true] at hthis
  rw [if_pos (by omega)]
  exact isSpace_lower (by omega) hthis.1.2

theorem isSpace_bracketed {host : String} (h : ∀ c ∈ host.toList, isSpace c = false) :
    ∀ c ∈ (bracketed host).toList, isSpace c = false := by
  unfold bracketed
  split
  · intro c hc
    rw [String.toList_append, String.toList_append, List.mem_append, List.mem_append] at hc
    rcases hc with (hc | hc) | hc
    · rw [List.mem_singleton.mp hc]
      decide
    · exact h c hc
    · rw [List.mem_singleton.mp hc]
      decide
  · exact h

theorem isSpace_withPort {host port entry : String} (h : ∀ c ∈ host.toList, isSpace c = false)
    (hentry : withPort host port = .ok entry) : ∀ c ∈ entry.toList, isSpace c = false := by
  unfold withPort at hentry
  split at hentry
  · cases hentry
    exact h
  · split at hentry
    · next n hn =>
      split at hentry
      · cases hentry
        intro c hc
        rw [String.toList_append, String.toList_append, List.mem_append, List.mem_append] at hc
        rcases hc with (hc | hc) | hc
        · exact h c hc
        · rw [List.mem_singleton.mp hc]
          decide
        · exact isSpace_of_atoi hn c hc
      · cases hentry
    · cases hentry

theorem trimSpace_normalized {raw entry : String} (h : normalizeAllowedHost lowerRune raw = .ok entry) :
    trimSpace entry = entry := by
  simp only [normalizeAllowedHost] at h
  split at h
  · cases h
  · split at h
    · cases h
    · split at h
      · cases h
      · next hchars =>
        split at h
        · cases h
        · exact trimSpace_of_no_space (isSpace_withPort (isSpace_bracketed (isSpace_toLower hchars)) h)

end Entries

/-! ## Approved endpoints -/

/-- The same name, whatever the case of its letters, and the same port. -/
def SameEndpoint (lowerRune : Char → Char) (request base : URL) : Prop :=
  toLower lowerRune request.hostname = toLower lowerRune base.hostname ∧
    effectivePort request.scheme request = effectivePort base.scheme base

/-- The name and the port that `net/url` reads from the entry; without a port it is the one of the request's scheme. -/
def EntryMatches (lowerRune : Char → Char) (parse : String → Option URL) (request : URL) (entry : String) : Prop :=
  ∃ allowed, parse (request.scheme ++ "://" ++ entry) = some allowed ∧
    toLower lowerRune request.hostname = toLower lowerRune allowed.hostname ∧
      effectivePort request.scheme request = effectivePort request.scheme allowed

/-- The default ports differ, and they hide that the ports differ or make equal ports look different. -/
def CrossedPorts (request base : URL) : Prop :=
  schemePort request.scheme ≠ schemePort base.scheme ∧
    (OnSchemePort request ∧ OnSchemePort base ∨
      effectivePort request.scheme request = effectivePort base.scheme base ∧
        (OnSchemePort request ∨ OnSchemePort base))

section Approved

variable {lowerRune : Char → Char} {parse : String → Option URL} {requestURL baseURL : String} {request base : URL}

theorem validateRequestURL_ok_iff {allowedHosts : List String} (hrequest : parse requestURL = some request)
    (habsolute : request.scheme ≠ "" ∧ request.host ≠ "") (hbase : parse baseURL = some base) (hhost : base.host ≠ "")
    (hallowed : ∀ entry ∈ allowedHosts, ∃ raw, normalizeAllowedHost lowerRune raw = .ok entry) :
    validateRequestURL lowerRune parse requestURL baseURL allowedHosts = .ok () ↔
      canonicalHost lowerRune request = canonicalHost lowerRune base ∨
        ∃ entry ∈ allowedHosts, ∃ allowed, parse (request.scheme ++ "://" ++ entry) = some allowed ∧
          canonicalHost lowerRune request = canonicalHost lowerRune allowed := by
  have hany : (allowedHosts.any fun entry =>
      match parse (request.scheme ++ "://" ++ trimSpace entry) with
      | some allowedURL => decide (canonicalHost lowerRune request = canonicalHost lowerRune allowedURL)
      | none => false) = true ↔
        ∃ entry ∈ allowedHosts, ∃ allowed, parse (request.scheme ++ "://" ++ entry) = some allowed ∧
          canonicalHost lowerRune request = canonicalHost lowerRune allowed := by
    rw [List.any_eq_true]
    refine exists_congr fun entry => and_congr_right fun hentry => ?_
    obtain ⟨raw, hraw⟩ := hallowed entry hentry
    rw [trimSpace_normalized hraw]
    cases parse (request.scheme ++ "://" ++ entry) with
    | none => simp
    | some allowed => simp
  simp only [validateRequestURL, hrequest, hbase, if_neg (not_or.mpr habsolute), if_neg hhost]
  rw [← hany]
  split
  · next h => exact iff_of_true rfl h
  · next h => exact iff_of_false (fun h => by cases h) h

theorem entryMatches_iff (hurl : NetURL lowerRune parse) (hrequest : parse requestURL = some request) (entry : String) :
    EntryMatches lowerRune parse request entry ↔ ∃ allowed, parse (request.scheme ++ "://" ++ entry) = some allowed ∧
      canonicalHost lowerRune request = canonicalHost lowerRune allowed := by
  refine exists_congr fun allowed => and_congr_right fun hallowed => ?_
  have hscheme : allowed.scheme = request.scheme := hurl.scheme _ _ _ _ hrequest hallowed
  rw [canonicalHost_eq_iff hurl hrequest hallowed, OnSchemePort, OnSchemePort, hscheme]
  refine and_congr_right fun _ => ⟨fun h => ?_, ?_⟩
  · by_cases hdefault : effectivePort request.scheme request = schemePort request.scheme
    · exact Or.inl ⟨hdefault, h.symm.trans hdefault⟩
    · exact Or.inr ⟨hdefault, fun hallowed => hdefault (h.trans hallowed), h⟩
  · rintro (⟨hr, ha⟩ | ⟨-, -, h⟩)
    · exact hr.trans ha.symm
    · exact h

/-- With one name, the texts are equal for equal ports only, and for all of these, unless the ports are crossed. -/
theorem canonicalHost_iff_sameEndpoint (hurl : NetURL lowerRune parse) (hrequest : parse requestURL = some request)
    (hbase : parse baseURL = some base) :
    (canonicalHost lowerRune request = canonicalHost lowerRune base ↔ SameEndpoint lowerRune request base) ↔
      toLower lowerRune request.hostname ≠ toLower lowerRune base.hostname ∨ ¬CrossedPorts request base := by
  rw [canonicalHost_eq_iff hurl hrequest hbase, SameEndpoint, CrossedPorts]
  by_cases hname : toLower lowerRune request.hostname = toLower lowerRune base.hostname
  · -- on the ports of both schemes the ports are equal when these are, and equal ports of one scheme are both on it
    have hboth : OnSchemePort request → OnSchemePort base →
        (effectivePort request.scheme request = effectivePort base.scheme base ↔
          schemePort request.scheme = schemePort base.scheme) := by
      intro hr hb
      rw [hr, hb]
    have hone : schemePort request.scheme = schemePort base.scheme →
        effectivePort request.scheme request = effectivePort base.scheme base →
          (OnSchemePort request ↔ OnSchemePort base) := by
      intro hscheme hport
      rw [OnSchemePort, OnSchemePort, hport, hscheme]
    by_cases hr : OnSchemePort request <;> by_cases hb : OnSchemePort base <;> simp_all [imp_iff_not_or]
  · simp [hname]

/-- **Approved endpoints.** A request is let through exactly to the endpoint of the base URL and to those of the
entries, if and only if an entry names its endpoint, or the names differ, or the ports are not crossed. -/
theorem validateRequestURL_exact_iff (hurl : NetURL lowerRune parse) {allowedHosts : List String}
    (hrequest : parse requestURL = some request) (habsolute : request.scheme ≠ "" ∧ request.host ≠ "")
    (hbase : parse baseURL = some base) (hhost : base.host ≠ "")
    (hallowed : ∀ entry ∈ allowedHosts, ∃ raw, normalizeAllowedHost lowerRune raw = .ok entry) :
    (validateRequestURL lowerRune parse requestURL baseURL allowedHosts = .ok () ↔
      SameEndpoint lowerRune request base ∨ ∃ entry ∈ allowedHosts, EntryMatches lowerRune parse request entry) ↔
    (∃ entry ∈ allowedHosts, EntryMatches lowerRune parse request entry) ∨
      toLower lowerRune request.hostname ≠ toLower lowerRune base.hostname ∨ ¬CrossedPorts request base := by
  rw [validateRequestURL_ok_iff hrequest habsolute hbase hhost hallowed,
    ← canonicalHost_iff_sameEndpoint hurl hrequest hbase]
  simp only [← entryMatches_iff hurl hrequest]
  by_cases hentry : ∃ entry ∈ allowedHosts, EntryMatches lowerRune parse request entry
  · exact iff_of_true (iff_of_true (Or.inr hentry) (Or.inr hentry)) (Or.inl hentry)
  · rw [or_iff_left hentry, or_iff_left hentry, or_iff_right hentry]

end Approved

/-! ## A key in the clear -/

/-- `url.Parse` of a scheme, two slashes and a plain host. -/
def parseWeb (text : String) : Option URL :=
  let scheme := text.toList.takeWhile (· ≠ ':')
  let host := (text.toList.drop (scheme.length + 3)).takeWhile (· ≠ '/')
  let u : URL := ⟨String.ofList scheme, String.ofList host⟩
  if '[' ∈ (toLower id u.hostname).toList ∨ (toLower id u.hostname).toList.count ':' = 1 then none else some u

theorem parseWeb_some {text : String} {u : URL} (h : parseWeb text = some u) :
    u.scheme.toList = text.toList.takeWhile (· ≠ ':') ∧
      ¬('[' ∈ (toLower id u.hostname).toList ∨ (toLower id u.hostname).toList.count ':' = 1) := by
  simp only [parseWeb] at h
  split at h
  · cases h
  · next hplain =>
    cases h
    exact ⟨String.toList_ofList, hplain⟩

theorem parseWeb_netURL : NetURL id parseWeb where
  bracket text u h := fun hmem => (parseWeb_some h).2 (Or.inl hmem)
  colons text u h := fun hcount => (parseWeb_some h).2 (Or.inr hcount)
  scheme text u rest v hu hv := by
    have hscheme := (parseWeb_some hu).1
    have hno : ∀ c ∈ u.scheme.toList, decide (c ≠ ':') = true := by
      intro c hc
      rw [hscheme] at hc
      exact List.mem_takeWhile_imp (p := fun c => decide (c ≠ ':')) hc
    refine String.toList_injective ((parseWeb_some hv).1.trans ?_)
    rw [String.toList_append, String.toList_append, List.append_assoc, List.takeWhile_append_of_pos hno]
    exact List.append_nil _

theorem parseWeb_http : parseWeb "http://a.io/v1" = some ⟨"http", "a.io"⟩ := by decide

theorem parseWeb_https : parseWeb "https://a.io" = some ⟨"https", "a.io"⟩ := by decide

/-- A request to the host of the base URL, in its scheme. -/
theorem validateRequestURL_exact_same :
    validateRequestURL id parseWeb "http://a.io/v1" "http://a.io/v1" [] = .ok () ↔
      SameEndpoint id ⟨"http", "a.io"⟩ ⟨"http", "a.io"⟩ ∨
        ∃ entry ∈ ([] : List String), EntryMatches id parseWeb ⟨"http", "a.io"⟩ entry :=
  (validateRequestURL_exact_iff parseWeb_netURL parseWeb_http (by decide) parseWeb_http (by decide)
    (List.forall_mem_nil _)).mpr (Or.inr (Or.inr fun h => h.1 rfl))

/-- The key of a channel that is reached over TLS goes out without it, to another port. -/
theorem key_sent_in_the_clear :
    validateRequestURL id parseWeb "http://a.io/v1" "https://a.io" [] = .ok () ∧
      ¬(SameEndpoint id ⟨"http", "a.io"⟩ ⟨"https", "a.io"⟩ ∨
        ∃ entry ∈ ([] : List String), EntryMatches id parseWeb ⟨"http", "a.io"⟩ entry) := by
  constructor
  · refine (validateRequestURL_ok_iff parseWeb_http (by decide) parseWeb_https (by decide)
      (List.forall_mem_nil _)).mpr (Or.inl ?_)
    decide
  · rintro (⟨-, hport⟩ | ⟨entry, hentry, -⟩)
    · exact absurd hport (by decide)
    · exact absurd hentry List.not_mem_nil

end Vancine.JsPlugin
