import Mathlib.Data.BitVec
import Vancine.Lib.Text

/-!
# IP addresses

What `net` does with the text of an address: an IP is its sixteen bytes, an IPv4 address under `::ffff:0:0/96`.
-/

namespace Vancine.ProtectedFetch

open Lib

/-! ## Addresses and networks -/

/-- `net.IP`, both lengths in one form. -/
structure IP where
  bits : BitVec 128
  deriving DecidableEq

/-- `IP.To4`. -/
def IP.to4 (ip : IP) : Option (BitVec 32) :=
  if ip.bits >>> 32 = 0xffff#128 then some (ip.bits.setWidth 32) else none

/-- `net.IPv4`. -/
def IP.ofV4 (a : BitVec 32) : IP := ⟨(0xffff#128 <<< 32) ||| a.setWidth 128⟩

/-- What `netip.ParseAddr` reads: the form of the text decides how long a mask can be. -/
inductive Addr
  | v4 (bits : BitVec 32)
  | v6 (bits : BitVec 128)
  deriving DecidableEq

/-- `Addr.As16`. -/
def Addr.as16 : Addr → IP
  | .v4 a => .ofV4 a
  | .v6 a => ⟨a⟩

/-- `net.IPNet` with a mask of `CIDRMask`. -/
structure IPNet where
  addr : Addr
  ones : ℕ

def sameBits {w : ℕ} (ones : ℕ) (a b : BitVec w) : Bool := a >>> (w - ones) == b >>> (w - ones)

/-- `IPNet.Contains`: a network whose number is an IPv4 one takes IPv4 addresses only. -/
def IPNet.contains (n : IPNet) (ip : IP) : Bool :=
  match n.addr with
  | .v4 a => ip.to4.any (sameBits n.ones a)
  | .v6 a =>
    match IP.to4 ⟨(a >>> (128 - n.ones)) <<< (128 - n.ones)⟩ with
    | some number => ip.to4.any (sameBits (n.ones - 96) number)
    | none => ip.to4.isNone && sameBits n.ones a ip.bits

/-! ## Reading an address -/

def digitsValue (base : ℕ) (value : Char → ℕ) (s : List Char) : ℕ := s.foldl (fun n c => base * n + value c) 0

def decimal (c : Char) : ℕ := c.toNat - '0'.toNat

def isHex (c : Char) : Bool := c.isDigit || ('a' ≤ c && c ≤ 'f') || ('A' ≤ c && c ≤ 'F')

def hexDigit (c : Char) : ℕ :=
  if c.isDigit then decimal c else if 'a' ≤ c then c.toNat - 'a'.toNat + 10 else c.toNat - 'A'.toNat + 10

/-- One field of `parseIPv4Fields`. -/
def octet? (s : List Char) : Option ℕ :=
  if s ≠ [] ∧ s.all Char.isDigit ∧ (s.length = 1 ∨ s.head? ≠ some '0') ∧ digitsValue 10 decimal s ≤ 255 then
    some (digitsValue 10 decimal s)
  else none

/-- `parseIPv4Fields`. -/
def parseIPv4 (s : List Char) : Option (BitVec 32) :=
  match (s.splitOn '.').mapM octet? with
  | some [a, b, c, d] => some (BitVec.ofNat 32 (((a * 256 + b) * 256 + c) * 256 + d))
  | _ => none

/-- The loop of `parseIPv6`: the groups read so far, and how many of them stand before the ellipsis. -/
def parseGroups : ℕ → List Char → List (BitVec 16) → Option ℕ → Option (List (BitVec 16) × Option ℕ)
  | 0, s, groups, ellipsis => if s = [] then some (groups, ellipsis) else none
  | room + 1, s, groups, ellipsis =>
    let digits := s.takeWhile isHex
    let group := BitVec.ofNat 16 (digitsValue 16 hexDigit digits)
    if digits = [] ∨ 4 < digits.length then none
    else
      match s.dropWhile isHex with
      | [] => some (groups ++ [group], ellipsis)
      | '.' :: _ =>
        if ellipsis = none ∧ groups.length ≠ 6 ∨ 6 < groups.length then none
        else (parseIPv4 s).map fun (a : BitVec 32) => (groups ++ [(a >>> 16).setWidth 16, a.setWidth 16], ellipsis)
      | ':' :: ':' :: rest =>
        if ellipsis.isSome then none
        else if rest = [] then some (groups ++ [group], some (groups.length + 1))
        else parseGroups room rest (groups ++ [group]) (some (groups.length + 1))
      | ':' :: rest => if rest = [] then none else parseGroups room rest (groups ++ [group]) ellipsis
      | _ => none

/-- The ellipsis stands for what is missing, which is at least one group. -/
def expandEllipsis : List (BitVec 16) × Option ℕ → Option (List (BitVec 16))
  | (groups, none) => if groups.length = 8 then some groups else none
  | (groups, some k) =>
    if groups.length < 8 then some (groups.take k ++ List.replicate (8 - groups.length) 0 ++ groups.drop k) else none

def ofGroups (groups : List (BitVec 16)) : BitVec 128 :=
  groups.foldl (fun a group => (a <<< 16) ||| group.setWidth 128) 0

/-- `parseIPv6` without a zone. -/
def parseIPv6 (s : List Char) : Option (BitVec 128) :=
  match s with
  | ':' :: ':' :: rest =>
    if rest = [] then some 0 else ((parseGroups 8 rest [] (some 0)).bind expandEllipsis).map ofGroups
  | _ => ((parseGroups 8 s [] none).bind expandEllipsis).map ofGroups

/-- `netip.ParseAddr`; an address with a zone is none, as its callers here have it. -/
def parseAddr (s : List Char) : Option Addr :=
  match s.find? (· ∈ ['.', ':', '%']) with
  | some '.' => (parseIPv4 s).map Addr.v4
  | some ':' => (parseIPv6 s).map Addr.v6
  | _ => none

/-- `net.ParseIP`. -/
def parseIP (s : String) : Option IP := (parseAddr s.toList).map Addr.as16

/-- The length of a mask, as `dtoi` reads it. -/
def maskBits? (s : List Char) : Option ℕ :=
  if s ≠ [] ∧ s.all Char.isDigit ∧ digitsValue 10 decimal s < 0xFFFFFF then some (digitsValue 10 decimal s) else none

def Addr.bitLen : Addr → ℕ
  | .v4 _ => 32
  | .v6 _ => 128

/-- `net.ParseCIDR`. -/
def parseCIDR (s : String) : Option IPNet :=
  match s.toList.dropWhile (· ≠ '/') with
  | [] => none
  | _ :: mask =>
    match parseAddr (s.toList.takeWhile (· ≠ '/')), maskBits? mask with
    | some addr, some ones => if ones ≤ addr.bitLen then some ⟨addr, ones⟩ else none
    | _, _ => none

/-! ## Writing an address -/

def IP.groups (ip : IP) : List (BitVec 16) := (List.range 8).map fun i => (ip.bits >>> (112 - 16 * i)).setWidth 16

/-- The first longest run of two zero groups or more, as its start and its length. -/
def zeroRun (groups : List (BitVec 16)) : ℕ × ℕ :=
  (List.range 8).foldl
    (fun best i =>
      let l := ((groups.drop i).takeWhile (· = 0)).length
      if 2 ≤ l ∧ best.2 < l then (i, l) else best)
    (8, 0)

def hexGroups (groups : List (BitVec 16)) : String :=
  ":".intercalate (groups.map fun group => String.ofList (Nat.toDigits 16 group.toNat))

/-- `IP.String`. -/
def IP.string (ip : IP) : String :=
  match ip.to4 with
  | some a => ".".intercalate ([24, 16, 8, 0].map fun k => toString ((a >>> k).setWidth 8).toNat)
  | none =>
    let run := zeroRun ip.groups
    if run.2 = 0 then hexGroups ip.groups
    else hexGroups (ip.groups.take run.1) ++ "::" ++ hexGroups (ip.groups.drop (run.1 + run.2))

example : ((parseIP "2001:db8::1:0:0:1").map IP.string, (parseIP "::ffff:10.0.0.1").map IP.string) =
    (some "2001:db8::1:0:0:1", some "10.0.0.1") := by
  decide

/-! ## Hosts and ports -/

/-- `net.SplitHostPort`. -/
def splitHostPort (hostport : String) : Option (String × String) :=
  let s := hostport.toList
  let port := (s.reverse.takeWhile (· ≠ ':')).reverse
  let before := (s.reverse.dropWhile (· ≠ ':')).reverse
  if before = [] then none
  else
    match s with
    | '[' :: inner =>
      let host := inner.takeWhile (· ≠ ']')
      let tail := inner.dropWhile (· ≠ ']')
      -- The bracket closes right before the last colon, and no other bracket follows.
      if tail = ']' :: ':' :: port ∧ '[' ∉ inner ∧ ']' ∉ port then some (String.ofList host, String.ofList port)
      else none
    | _ =>
      let host := before.dropLast
      if ':' ∈ host ∨ '[' ∈ s ∨ ']' ∈ s then none else some (String.ofList host, String.ofList port)

/-- `net.JoinHostPort`. -/
def joinHostPort (host port : String) : String :=
  if ':' ∈ host.toList ∨ '%' ∈ host.toList then "[" ++ host ++ "]:" ++ port else host ++ ":" ++ port

/-- `strconv.Atoi`. -/
def atoi (s : String) : Option ℤ :=
  let unsigned : List Char → Option ℕ := fun t =>
    if t ≠ [] ∧ t.all Char.isDigit then some (digitsValue 10 decimal t) else none
  match s.toList with
  | '-' :: t => (unsigned t).bind fun n => if n ≤ 2 ^ 63 then some (-(n : ℤ)) else none
  | '+' :: t => (unsigned t).bind fun n => if n < 2 ^ 63 then some (n : ℤ) else none
  | t => (unsigned t).bind fun n => if n < 2 ^ 63 then some (n : ℤ) else none

/-! ## What an address is written with -/

/-- The characters of an address. -/
def IsAddrChar (c : Char) : Prop := isHex c = true ∨ c = '.' ∨ c = ':'

variable {c : Char} {s : List Char}

theorem isHex_of_isDigit (h : c.isDigit = true) : isHex c = true := by
  simp [isHex, h]

theorem mem_of_mem_intercalate {sep : Char} {parts : List (List Char)} (h : c ∈ [sep].intercalate parts) :
    c = sep ∨ ∃ part ∈ parts, c ∈ part := by
  induction parts with
  | nil => exact absurd h List.not_mem_nil
  | cons part parts ih =>
    cases parts with
    | nil => exact .inr ⟨part, List.mem_singleton_self part, by simpa using h⟩
    | cons next parts =>
      rw [List.intercalate_cons_cons, List.append_assoc, List.mem_append, List.mem_append] at h
      rcases h with h | h | h
      · exact .inr ⟨part, List.mem_cons_self, h⟩
      · exact .inl (List.mem_singleton.mp h)
      · exact (ih h).imp_right fun ⟨p, hp, hc⟩ => ⟨p, List.mem_cons_of_mem part hp, hc⟩

theorem eq_some_of_mapM {α β : Type} {f : α → Option β} {l : List α} {l' : List β} (h : l.mapM f = some l') :
    ∀ a ∈ l, ∃ b, f a = some b := by
  induction l generalizing l' with
  | nil => exact fun a ha => absurd ha List.not_mem_nil
  | cons a l ih =>
    rw [List.mapM_cons] at h
    obtain ⟨b, hb, h⟩ := Option.bind_eq_some_iff.mp h
    obtain ⟨bs, hbs, -⟩ := Option.bind_eq_some_iff.mp h
    intro x hx
    rcases List.mem_cons.mp hx with rfl | hx
    · exact ⟨b, hb⟩
    · exact ih hbs x hx

theorem octet?_digits {n : ℕ} (h : octet? s = some n) : ∀ c ∈ s, c.isDigit = true := by
  unfold octet? at h
  split at h
  · next hs => exact List.all_eq_true.mp hs.2.1
  · cases h

theorem parseIPv4_chars {a : BitVec 32} (h : parseIPv4 s = some a) : ∀ c ∈ s, IsAddrChar c := by
  intro c hc
  have hjoin : ['.'].intercalate (s.splitOn '.') = s := List.intercalate_splitOn '.'
  rw [← hjoin] at hc
  rcases mem_of_mem_intercalate hc with rfl | ⟨part, hpart, hc⟩
  · exact .inr (.inl rfl)
  · unfold parseIPv4 at h
    split at h
    · next hfields =>
      obtain ⟨n, hn⟩ := eq_some_of_mapM hfields part hpart
      exact .inl (isHex_of_isDigit (octet?_digits hn c hc))
    · cases h

/-- A text of groups is its first run of digits and, after it, one of the four continuations. -/
theorem parseGroups_chars (room : ℕ) (s : List Char) (groups : List (BitVec 16)) (ellipsis : Option ℕ)
    (r : List (BitVec 16) × Option ℕ) (h : parseGroups room s groups ellipsis = some r) : ∀ c ∈ s, IsAddrChar c := by
  induction room generalizing s groups ellipsis with
  | zero =>
    have hs : s = [] := by by_contra hs; simp [parseGroups, hs] at h
    exact hs ▸ fun c hc => absurd hc List.not_mem_nil
  | succ room ih =>
    have hdigits : ∀ c ∈ s.takeWhile isHex, IsAddrChar c := fun c hc => .inl (List.mem_takeWhile_imp hc)
    have hcolon : IsAddrChar ':' := .inr (.inr rfl)
    -- It is enough to look behind the digits.
    suffices hrest : ∀ c ∈ s.dropWhile isHex, IsAddrChar c by
      intro c hc
      rw [← List.takeWhile_append_dropWhile (p := isHex) (l := s)] at hc
      exact (List.mem_append.mp hc).elim (hdigits c) (hrest c)
    dsimp only [parseGroups] at h
    split at h
    · cases h
    · split at h
      · next hrest => exact hrest ▸ fun c hc => absurd hc List.not_mem_nil
      · split at h
        · cases h
        · obtain ⟨a, ha, -⟩ := Option.map_eq_some_iff.mp h
          exact fun c hc => parseIPv4_chars ha c ((List.dropWhile_suffix isHex).subset hc)
      · next rest hrest =>
        rw [hrest]
        split at h
        · cases h
        · split at h
          · next hnil => subst hnil; simp [hcolon]
          · simpa [hcolon] using ih _ _ _ h
      · next rest _ hrest =>
        rw [hrest]
        split at h
        · cases h
        · simpa [hcolon] using ih _ _ _ h
      · cases h

theorem parseIPv6_chars {a : BitVec 128} (h : parseIPv6 s = some a) : ∀ c ∈ s, IsAddrChar c := by
  have hgroups : ∀ {t ellipsis}, ((parseGroups 8 t [] ellipsis).bind expandEllipsis).map ofGroups = some a →
      ∀ c ∈ t, IsAddrChar c := by
    intro t ellipsis ht
    obtain ⟨groups, hgroups, -⟩ := Option.map_eq_some_iff.mp ht
    obtain ⟨r, hr, -⟩ := Option.bind_eq_some_iff.mp hgroups
    exact parseGroups_chars 8 t [] ellipsis r hr
  unfold parseIPv6 at h
  split at h
  · have hcolon : IsAddrChar ':' := .inr (.inr rfl)
    split at h
    · next hnil => subst hnil; simp [hcolon]
    · simpa [hcolon] using hgroups h
  · exact hgroups h

theorem IsAddrChar.range (h : IsAddrChar c) : 46 ≤ c.toNat ∧ c.toNat ≤ 102 := by
  rcases h with h | rfl | rfl
  · simp only [isHex, Char.isDigit, Bool.or_eq_true, Bool.and_eq_true, decide_eq_true_eq, ge_iff_le, Char.le_def,
      UInt32.le_iff_toNat_le] at h
    simp at h
    have hval : c.toNat = c.val.toNat := rfl
    omega
  · decide
  · decide

theorem IsAddrChar.not_space (h : IsAddrChar c) : isSpace c = false := by
  by_contra hspace
  have := isSpace_toNat (by simpa using hspace)
  have := h.range
  omega

theorem trimSpace_of_parseIP {s : String} {ip : IP} (h : parseIP s = some ip) : trimSpace s = s := by
  obtain ⟨addr, haddr, -⟩ := Option.map_eq_some_iff.mp h
  have hchars : ∀ c ∈ s.toList, IsAddrChar c := by
    unfold parseAddr at haddr
    split at haddr
    · obtain ⟨a, ha, -⟩ := Option.map_eq_some_iff.mp haddr
      exact parseIPv4_chars ha
    · obtain ⟨a, ha, -⟩ := Option.map_eq_some_iff.mp haddr
      exact parseIPv6_chars ha
    · cases haddr
  exact trimSpace_of_no_space fun c hc => (hchars c hc).not_space

end Vancine.ProtectedFetch
