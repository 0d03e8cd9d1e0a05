import Mathlib
import Vancine.Lib.Scan

/-!
# Texts and literals of the expression editor

A text is a list of characters. Lone surrogates, which a JavaScript string may hold, are not characters;
everything else is as in JavaScript: what `trim` takes for white space, which characters `JSON.stringify`
escapes and how `JSON.parse` reads a string back, which texts are numeric literals, and which integer, if
any, `Number` makes of one.
-/

namespace Vancine.Pricing

open Lib

abbrev Text := List Char

/-! ## White space -/

/-- What `trim` removes. -/
def isSpace (c : Char) : Bool :=
  c ∈ ['\t', '\n', '\x0b', '\x0c', '\r', ' ', '\u00a0', '\u1680', '\u2028', '\u2029', '\u202f', '\u205f',
    '\u3000', '\ufeff'] || ('\u2000' ≤ c && c ≤ '\u200a')

def trim (text : Text) : Text := trimBy isSpace text

@[simp] theorem trim_trim (text : Text) : trim (trim text) = trim text := trimBy_trimBy isSpace text

/-- What `.` does not match. -/
def isLineTerminator (c : Char) : Bool := c ∈ ['\n', '\r', '\u2028', '\u2029']

/-- `includes`. -/
def includes (text part : Text) : Bool := decide (part <:+: text)

/-! ## Strings in quotes -/

def hexDigit (n : ℕ) : Char := if n < 10 then Char.ofNat (48 + n) else Char.ofNat (87 + n)

/-- How `JSON.stringify` writes a character. -/
def escapeChar (c : Char) : Text :=
  if c = '"' then ['\\', '"']
  else if c = '\\' then ['\\', '\\']
  else if c = '\x08' then ['\\', 'b']
  else if c = '\t' then ['\\', 't']
  else if c = '\n' then ['\\', 'n']
  else if c = '\x0c' then ['\\', 'f']
  else if c = '\r' then ['\\', 'r']
  else if c.toNat < 32 then ['\\', 'u', '0', '0', hexDigit (c.toNat / 16), hexDigit (c.toNat % 16)]
  else [c]

def escape (text : Text) : Text := text.flatMap escapeChar

/-- `JSON.stringify` of a string. -/
def stringify (text : Text) : Text := '"' :: (escape text ++ ['"'])

def hexValue (c : Char) : Option ℕ :=
  if '0' ≤ c ∧ c ≤ '9' then some (c.toNat - 48)
  else if 'a' ≤ c ∧ c ≤ 'f' then some (c.toNat - 87)
  else if 'A' ≤ c ∧ c ≤ 'F' then some (c.toNat - 55)
  else none

/-- The character after a backslash, other than `u`. -/
def unescapeChar (c : Char) : Option Char :=
  if c = '"' then some '"'
  else if c = '\\' then some '\\'
  else if c = '/' then some '/'
  else if c = 'b' then some '\x08'
  else if c = 'f' then some '\x0c'
  else if c = 'n' then some '\n'
  else if c = 'r' then some '\r'
  else if c = 't' then some '\t'
  else none

/-- The code units of a string up to its closing quote, and what follows. A character that is not escaped
is one unit here. -/
def stringUnits : Text → Option (List ℕ × Text)
  | [] => none
  | '"' :: rest => some ([], rest)
  | '\\' :: 'u' :: a :: b :: c :: d :: rest => do
    let a ← hexValue a
    let b ← hexValue b
    let c ← hexValue c
    let d ← hexValue d
    let (units, rest) ← stringUnits rest
    return ((((a * 16 + b) * 16 + c) * 16 + d) :: units, rest)
  | '\\' :: c :: rest => do
    let c ← unescapeChar c
    let (units, rest) ← stringUnits rest
    return (c.toNat :: units, rest)
  | c :: rest => do
    guard (c ≠ '\\' ∧ 32 ≤ c.toNat)
    let (units, rest) ← stringUnits rest
    return (c.toNat :: units, rest)

/-- Code units as characters; two escaped surrogates make one. -/
def joinUnits : List ℕ → Option Text
  | [] => some []
  | [unit] => if unit.isValidChar then some [Char.ofNat unit] else none
  | unit :: low :: rest =>
    if 0xd800 ≤ unit ∧ unit < 0xdc00 ∧ 0xdc00 ≤ low ∧ low < 0xe000 then do
      let text ← joinUnits rest
      return Char.ofNat (0x10000 + (unit - 0xd800) * 0x400 + (low - 0xdc00)) :: text
    else if unit.isValidChar then do
      let text ← joinUnits (low :: rest)
      return Char.ofNat unit :: text
    else none

/-- `JSON.parse` of a string. -/
def parseString : Text → Option Text
  | '"' :: body => do
    let (units, rest) ← stringUnits body
    guard (rest = [])
    joinUnits units
  | _ => none

/-- `JSON.stringify` leaves the character as it is. -/
def isPlain (c : Char) : Bool := c ≠ '"' && c ≠ '\\' && 32 ≤ c.toNat

theorem escapeChar_rec {P : Char → Text → Prop} (quote : P '"' ['\\', '"']) (backslash : P '\\' ['\\', '\\'])
    (backspace : P '\x08' ['\\', 'b']) (tab : P '\t' ['\\', 't']) (newline : P '\n' ['\\', 'n'])
    (formFeed : P '\x0c' ['\\', 'f']) (carriageReturn : P '\r' ['\\', 'r'])
    (control : ∀ c : Char, c.toNat < 32 → P c ['\\', 'u', '0', '0', hexDigit (c.toNat / 16), hexDigit (c.toNat % 16)])
    (plain : ∀ c, isPlain c = true → P c [c]) (c : Char) : P c (escapeChar c) := by
  unfold escapeChar
  by_cases h1 : c = '"'
  · rw [if_pos h1, h1]; exact quote
  rw [if_neg h1]
  by_cases h2 : c = '\\'
  · rw [if_pos h2, h2]; exact backslash
  rw [if_neg h2]
  by_cases h3 : c = '\x08'
  · rw [if_pos h3, h3]; exact backspace
  rw [if_neg h3]
  by_cases h4 : c = '\t'
  · rw [if_pos h4, h4]; exact tab
  rw [if_neg h4]
  by_cases h5 : c = '\n'
  · rw [if_pos h5, h5]; exact newline
  rw [if_neg h5]
  by_cases h6 : c = '\x0c'
  · rw [if_pos h6, h6]; exact formFeed
  rw [if_neg h6]
  by_cases h7 : c = '\r'
  · rw [if_pos h7, h7]; exact carriageReturn
  rw [if_neg h7]
  by_cases h8 : c.toNat < 32
  · rw [if_pos h8]; exact control c h8
  rw [if_neg h8]
  refine plain c ?_
  unfold isPlain
  simp only [Bool.and_eq_true, decide_eq_true_eq]
  exact ⟨⟨h1, h2⟩, by omega⟩

/-- A character stands for itself, or a backslash escapes it. -/
theorem escapeChar_cases (c : Char) : (isPlain c = true ∧ escapeChar c = [c]) ∨
      isPlain c = false ∧ ∃ e w, escapeChar c = '\\' :: e :: w ∧ isLineTerminator e = false ∧
        ∀ d ∈ w, isPlain d = true := by
  have hhex : ∀ n < 16, isPlain (hexDigit n) = true := by decide
  refine escapeChar_rec (P := fun c text => (isPlain c = true ∧ text = [c]) ∨
    isPlain c = false ∧ ∃ e w, text = '\\' :: e :: w ∧ isLineTerminator e = false ∧ ∀ d ∈ w, isPlain d = true)
    ?_ ?_ ?_ ?_ ?_ ?_ ?_ ?_ ?_ c
  · exact .inr ⟨by decide, '"', [], rfl, by decide, nofun⟩
  · exact .inr ⟨by decide, '\\', [], rfl, by decide, nofun⟩
  · exact .inr ⟨by decide, 'b', [], rfl, by decide, nofun⟩
  · exact .inr ⟨by decide, 't', [], rfl, by decide, nofun⟩
  · exact .inr ⟨by decide, 'n', [], rfl, by decide, nofun⟩
  · exact .inr ⟨by decide, 'f', [], rfl, by decide, nofun⟩
  · exact .inr ⟨by decide, 'r', [], rfl, by decide, nofun⟩
  · intro c hlow
    have hplain : isPlain c = false := by
      unfold isPlain
      rw [Bool.and_eq_false_iff]
      exact .inr (decide_eq_false (by omega))
    refine .inr ⟨hplain, 'u', _, rfl, by decide, ?_⟩
    intro d hd
    rcases List.mem_cons.mp hd with rfl | hd
    · decide
    rcases List.mem_cons.mp hd with rfl | hd
    · decide
    rcases List.mem_cons.mp hd with rfl | hd
    · exact hhex _ (by omega)
    rw [List.mem_singleton.mp hd]
    exact hhex _ (by omega)
  · exact fun c hplain => .inl ⟨hplain, rfl⟩

theorem length_le_escape (text : Text) : text.length ≤ (escape text).length := by
  induction text with
  | nil => exact Nat.le_refl 0
  | cons c text ih =>
    have hone : 1 ≤ (escapeChar c).length := by
      rcases escapeChar_cases c with ⟨-, h⟩ | ⟨-, e, w, h, -⟩ <;> rw [h] <;> simp
    show text.length + 1 ≤ (escapeChar c ++ escape text).length
    rw [List.length_append]
    omega

/-- A text is written as it is exactly when each character is. -/
theorem escape_eq_self_iff (text : Text) : escape text = text ↔ ∀ c ∈ text, isPlain c = true := by
  induction text with
  | nil => exact iff_of_true rfl nofun
  | cons c text ih =>
    rw [List.forall_mem_cons, ← ih]
    show escapeChar c ++ escape text = c :: text ↔ _
    rcases escapeChar_cases c with ⟨hc, h⟩ | ⟨hc, e, w, h, -⟩
    · rw [h, hc]
      simp
    · refine iff_of_false ?_ (by simp [hc])
      intro heq
      have hlen := congrArg List.length heq
      have hle := length_le_escape text
      rw [h, List.length_append] at hlen
      simp only [List.length_cons] at hlen
      omega

theorem hexValue_hexDigit : ∀ n < 16, hexValue (hexDigit n) = some n := by decide

theorem stringUnits_escapeChar (c : Char) (rest : Text) : stringUnits (escapeChar c ++ rest) =
      (stringUnits rest).map fun (units, rest) => (c.toNat :: units, rest) := by
  have hmap : ((stringUnits rest).bind fun (units, rest) => some (c.toNat :: units, rest)) =
      (stringUnits rest).map fun (units, rest) => (c.toNat :: units, rest) := by
    rw [Option.map_eq_bind]
    rfl
  revert hmap
  refine escapeChar_rec (P := fun c text =>
    ((stringUnits rest).bind fun (units, rest) => some (c.toNat :: units, rest)) =
      (stringUnits rest).map (fun (units, rest) => (c.toNat :: units, rest)) →
        stringUnits (text ++ rest) = (stringUnits rest).map fun (units, rest) => (c.toNat :: units, rest))
    id id id id id id id ?_ ?_ c
  · intro c hc hmap
    have hhigh := hexValue_hexDigit (c.toNat / 16) (by omega)
    have hlow := hexValue_hexDigit (c.toNat % 16) (by omega)
    have hzero : hexValue '0' = some 0 := by decide
    have hval : ((0 * 16 + 0) * 16 + c.toNat / 16) * 16 + c.toNat % 16 = c.toNat := by omega
    simp only [List.cons_append, List.nil_append]
    rw [stringUnits]
    simp only [hhigh, hlow, hzero, Option.bind_eq_bind, Option.bind_some, hval]
    exact hmap
  · intro c hc hmap
    unfold isPlain at hc
    simp only [Bool.and_eq_true, decide_eq_true_eq] at hc
    obtain ⟨⟨hquote, hslash⟩, hlow⟩ := hc
    rw [List.singleton_append, stringUnits.eq_def]
    split
    · simp_all
    · simp_all
    · simp_all
    · simp_all
    · rename_i d rest' _ _ _ heq
      cases heq
      simp only [hslash, hlow, ne_eq, not_false_eq_true, and_self, guard_true]
      exact hmap

theorem stringUnits_escape (text rest : Text) :
    stringUnits (escape text ++ '"' :: rest) = some (text.map Char.toNat, rest) := by
  induction text with
  | nil => rfl
  | cons c text ih =>
    have happ : escape (c :: text) ++ '"' :: rest = escapeChar c ++ (escape text ++ '"' :: rest) :=
      List.append_assoc _ _ _
    rw [happ, stringUnits_escapeChar, ih]
    rfl

theorem joinUnits_toNat (text : Text) : joinUnits (text.map Char.toNat) = some text := by
  induction text with
  | nil => rfl
  | cons c text ih =>
    have hc : c.toNat.isValidChar := c.valid
    cases text with
    | nil =>
      show (if c.toNat.isValidChar then some [Char.ofNat c.toNat] else none) = _
      rw [if_pos hc, Char.ofNat_toNat]
    | cons d text =>
      have hnot : ¬(0xd800 ≤ c.toNat ∧ c.toNat < 0xdc00 ∧ 0xdc00 ≤ d.toNat ∧ d.toNat < 0xe000) := by
        rintro ⟨h1, h2, -⟩
        rcases hc with h | h <;> omega
      show joinUnits (c.toNat :: d.toNat :: text.map Char.toNat) = _
      rw [joinUnits, if_neg hnot, if_pos hc]
      have ih' : joinUnits (d.toNat :: text.map Char.toNat) = some (d :: text) := ih
      rw [ih', Char.ofNat_toNat]
      rfl

@[simp] theorem parseString_stringify (text : Text) : parseString (stringify text) = some text := by
  show (do
    let (units, rest) ← stringUnits (escape text ++ ['"'])
    guard (rest = [])
    joinUnits units) = some text
  rw [stringUnits_escape]
  exact joinUnits_toNat text

/-! ## Numbers -/

def isDigit (c : Char) : Bool := '0' ≤ c && c ≤ '9'

/-- `[\d.eE+-]`. -/
def isNumberChar (c : Char) : Bool := isDigit c || c ∈ ['.', 'e', 'E', '+', '-']

/-- A numeric literal in its parts. -/
structure Decimal where
  negative : Bool
  whole : Text
  fraction : Text
  exponent : ℤ

def digitsValue (digits : Text) : ℕ := digits.foldl (fun n c => n * 10 + (c.toNat - 48)) 0

/-- `(?:[eE][+-]?\d+)?$`. -/
def exponentPart : Text → Option ℤ
  | [] => some 0
  | e :: rest =>
    if e = 'e' ∨ e = 'E' then
      let (sign, digits) := match rest with
        | '+' :: digits => ((1 : ℤ), digits)
        | '-' :: digits => (-1, digits)
        | digits => (1, digits)
      if digits ≠ [] ∧ digits.all isDigit then some (sign * digitsValue digits) else none
    else none

/-- `(?:\d+\.?\d*|\.\d+)` and the exponent. -/
def mantissaPart (negative : Bool) (text : Text) : Option Decimal :=
  let whole := text.takeWhile isDigit
  match text.dropWhile isDigit with
  | '.' :: rest =>
    let fraction := rest.takeWhile isDigit
    if whole = [] ∧ fraction = [] then none
    else (exponentPart (rest.dropWhile isDigit)).map (⟨negative, whole, fraction, ·⟩)
  | rest => if whole = [] then none else (exponentPart rest).map (⟨negative, whole, [], ·⟩)

/-- `NUMERIC_LITERAL_REGEX`. -/
def numericLiteral : Text → Option Decimal
  | '-' :: text => mantissaPart true text
  | text => mantissaPart false text

def isNumeric (text : Text) : Bool := (numericLiteral text).isSome

/-- Division to the nearest integer, to the even one of two. -/
def roundDiv (n d : ℕ) : ℕ :=
  if 2 * (n % d) < d then n / d
  else if d < 2 * (n % d) then n / d + 1
  else if n / d % 2 = 0 then n / d
  else n / d + 1

/-- The integer that the double nearest to `n / d` is, if it is one: the double is a multiple of `2 ^ e` with
a significand below `2 ^ 53`, and `e` is at least -1074. -/
def nearestInteger (n d : ℕ) : Option ℕ :=
  if n = 0 then some 0
  else
    let estimate : ℤ := (n.log2 : ℤ) - d.log2
    let exact : ℤ := if d * 2 ^ estimate.toNat ≤ n * 2 ^ (-estimate).toNat then estimate else estimate - 1
    let e : ℤ := max (exact - 52) (-1074)
    let m := roundDiv (n * 2 ^ (-e).toNat) (d * 2 ^ e.toNat)
    if 0 ≤ e then
      if m * 2 ^ e.toNat < 2 ^ 1024 then some (m * 2 ^ e.toNat) else none
    else if m % 2 ^ (-e).toNat = 0 then some (m / 2 ^ (-e).toNat)
    else none

/-- `Number` of a numeric literal, when that is an integer. -/
def Decimal.integer? (x : Decimal) : Option ℤ :=
  let digits := digitsValue (x.whole ++ x.fraction)
  let e : ℤ := x.exponent - x.fraction.length
  (nearestInteger (digits * 10 ^ e.toNat) (10 ^ (-e).toNat)).map fun n => if x.negative then -n else n

/-- `Number` of a text, when that is an integer. -/
def integer? (text : Text) : Option ℤ := (numericLiteral text).bind Decimal.integer?

theorem isNumberChar_digit {c : Char} (h : isDigit c = true) : isNumberChar c = true := by
  unfold isNumberChar
  rw [h]
  rfl

variable {text : Text}

theorem exponentPart_chars {e : ℤ} (h : exponentPart text = some e) : ∀ c ∈ text, isNumberChar c = true := by
  have hdigits : ∀ {digits : Text}, digits.all isDigit = true → ∀ c ∈ digits, isNumberChar c = true :=
    fun hall c hc => isNumberChar_digit (List.all_eq_true.mp hall c hc)
  cases text with
  | nil => nofun
  | cons a rest =>
    unfold exponentPart at h
    dsimp only at h
    split_ifs at h with ha hd
    have hfirst : isNumberChar a = true := by
      rcases ha with rfl | rfl <;> decide
    refine List.forall_mem_cons.mpr ⟨hfirst, ?_⟩
    obtain ⟨-, hall⟩ := hd
    split at hall
    · exact List.forall_mem_cons.mpr ⟨by decide, hdigits hall⟩
    · exact List.forall_mem_cons.mpr ⟨by decide, hdigits hall⟩
    · exact hdigits hall

theorem takeWhile_digits (text : Text) : ∀ c ∈ text.takeWhile isDigit, isNumberChar c = true :=
  fun _ hc => isNumberChar_digit (List.mem_takeWhile_imp hc)

theorem mantissaPart_chars {negative : Bool} {x : Decimal} (h : mantissaPart negative text = some x) :
    text ≠ [] ∧ ∀ c ∈ text, isNumberChar c = true := by
  have hsplit : text = text.takeWhile isDigit ++ text.dropWhile isDigit :=
    List.takeWhile_append_dropWhile.symm
  unfold mantissaPart at h
  dsimp only at h
  split at h
  · rename_i rest hrest
    split_ifs at h
    obtain ⟨e, he, -⟩ := Option.map_eq_some_iff.mp h
    have hrest' : rest = rest.takeWhile isDigit ++ rest.dropWhile isDigit :=
      List.takeWhile_append_dropWhile.symm
    rw [hsplit, hrest, hrest']
    refine ⟨by simp, ?_⟩
    intro c hc
    simp only [List.mem_append, List.mem_cons] at hc
    rcases hc with hc | rfl | hc | hc
    · exact takeWhile_digits text c hc
    · decide
    · exact takeWhile_digits rest c hc
    · exact exponentPart_chars he c hc
  · split_ifs at h with hwhole
    obtain ⟨e, he, -⟩ := Option.map_eq_some_iff.mp h
    refine ⟨?_, ?_⟩
    · rintro rfl
      exact hwhole rfl
    · rw [hsplit]
      intro c hc
      rcases List.mem_append.mp hc with hc | hc
      · exact takeWhile_digits text c hc
      · exact exponentPart_chars he c hc

theorem isNumeric_chars (h : isNumeric text = true) : text ≠ [] ∧ ∀ c ∈ text, isNumberChar c = true := by
  obtain ⟨x, hx⟩ := Option.isSome_iff_exists.mp h
  unfold numericLiteral at hx
  split at hx
  · refine ⟨List.cons_ne_nil _ _, ?_⟩
    rw [List.forall_mem_cons]
    exact ⟨by decide, (mantissaPart_chars hx).2⟩
  · exact mantissaPart_chars hx

end Vancine.Pricing
