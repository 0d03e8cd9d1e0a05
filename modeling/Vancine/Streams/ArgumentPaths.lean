import Vancine.Streams.GeminiPartialCalls

/-!
# Paths of partial arguments

A partial argument names its place by a JSON path, with members after a dot or in quotes and with indices. However a path
is written, it is read back as the segments it was written for.
-/

namespace Vancine.Streams.Gemini

open Lib

variable {quoting : Quoting} {path : List PathSegment} {text : List Char}

/-! ## How a path is written -/

/-- A character of a quoted member: with a backslash before a backslash or the quote, and a control character by its
number. -/
def escapeChar (quote c : Char) : List Char :=
  if c = '\\' ∨ c = quote then ['\\', c]
  else if c.toNat < 32 then ['\\', 'u', '0', '0', (c.toNat / 16).digitChar, (c.toNat % 16).digitChar]
  else [c]

def escaped (quote : Char) (member : String) : List Char := member.toList.flatMap (escapeChar quote)

/-- The ways to write the segments of a path. -/
inductive Rendering : List PathSegment → List Char → Prop
  | root : Rendering [] []
  | dotted (member : String) (hne : member ≠ "") (hplain : ∀ c ∈ member.toList, c ∉ ['.', '[', ']', '*', '?'])
      {path text} (hlast : path = [] → ∀ c ∈ member.toList.getLast?, isSpace c = false) (h : Rendering path text) :
      Rendering (.member member :: path) ('.' :: (member.toList ++ text))
  | quoted (member : String) (quote : Char) (hquote : quote = '\'' ∨ quote = '"') {path text} (h : Rendering path text) :
      Rendering (.member member :: path) ('[' :: quote :: (escaped quote member ++ quote :: ']' :: text))
  | index (index : ℕ) (hindex : index ≤ maxGeminiPartialArgArrayIndex) {path text} (h : Rendering path text) :
      Rendering (.index index :: path) ('[' :: (Nat.toDigits 10 index ++ ']' :: text))

/-- A quoted text is read as the member it was written for. -/
def Quoting.Reads (quoting : Quoting) : Prop :=
  ∀ member, quoting.unmarshal (String.ofList ('"' :: escaped '"' member ++ ['"'])) = .ok member

theorem digitChar_plain (n : ℕ) (h : n < 16) : n.digitChar ∉ ['\\', '\'', '"'] := by
  revert n
  decide

theorem scanMember_escaped {quote : Char} (hquote : quote = '\'' ∨ quote = '"') (chars rest : List Char) :
    scanMember quote (chars.flatMap (escapeChar quote) ++ quote :: rest) = some (chars.flatMap (escapeChar quote), rest) := by
  have hslash : quote ≠ '\\' := by rcases hquote with rfl | rfl <;> decide
  have hplain {c : Char} (hc : c ≠ '\\' ∧ c ≠ quote) (more : List Char) :
      scanMember quote (c :: more) = (scanMember quote more).map fun r => (c :: r.1, r.2) := by
    rw [scanMember.eq_def]
    simp only [if_neg hc.1, if_neg hc.2]
  induction chars with
  | nil =>
    rw [List.flatMap_nil, List.nil_append, scanMember.eq_def]
    simp only [if_neg hslash, if_true]
  | cons c chars ih =>
    have hpair (c' : Char) (more : List Char) : scanMember quote ('\\' :: c' :: more) =
        (scanMember quote more).map fun r => ('\\' :: c' :: r.1, r.2) := by
      rw [scanMember.eq_def]
      simp only [if_true]
    rw [List.flatMap_cons, List.append_assoc]
    generalize hmore : chars.flatMap (escapeChar quote) = more at ih ⊢
    unfold escapeChar
    split_ifs with hc hctl
    · rw [List.cons_append, List.cons_append, List.nil_append, hpair, ih]
      rfl
    · have hdigit (n : ℕ) (hn : n < 16) : n.digitChar ≠ '\\' ∧ n.digitChar ≠ quote := by
        have := digitChar_plain n hn
        simp only [List.mem_cons, List.not_mem_nil, or_false, not_or] at this
        rcases hquote with rfl | rfl
        · exact ⟨this.1, this.2.1⟩
        · exact ⟨this.1, this.2.2⟩
      have hzero : '0' ≠ '\\' ∧ '0' ≠ quote := by rcases hquote with rfl | rfl <;> decide
      simp only [List.cons_append, List.nil_append]
      rw [hpair, hplain hzero, hplain hzero, hplain (hdigit _ (by omega)), hplain (hdigit _ (by omega)), ih]
      rfl
    · rw [List.cons_append, List.nil_append, hplain (not_or.mp hc), ih]
      rfl

/-- A member in single quotes is turned into one in double quotes. -/
theorem requote (chars : List Char) : replaceSingleQuotes (replaceDoubleQuotes (chars.flatMap (escapeChar '\''))) =
    chars.flatMap (escapeChar '"') := by
  have hstep {c : Char} {more : List Char} (h : c ≠ '\\' ∨ more.head? ≠ some '\'') :
      replaceSingleQuotes (c :: more) = c :: replaceSingleQuotes more := by
    rw [replaceSingleQuotes.eq_def]
    split <;> simp_all
  have hdouble (c : Char) (chars : List Char) : replaceDoubleQuotes (c :: chars) =
      (if c = '"' then ['\\', '"'] else [c]) ++ replaceDoubleQuotes chars := List.flatMap_cons
  have hhead (chars : List Char) :
      (replaceDoubleQuotes (chars.flatMap (escapeChar '\''))).head? ≠ some '\'' := by
    cases chars with
    | nil => simp [replaceDoubleQuotes]
    | cons c chars =>
      rw [List.flatMap_cons]
      unfold escapeChar
      split_ifs with hc hctl <;> simp only [List.cons_append, List.nil_append, hdouble]
      · simp
      · simp
      · split_ifs
        · simp
        · simpa using fun h => hc (.inr h)
  induction chars with
  | nil => rfl
  | cons c chars ih =>
    rw [List.flatMap_cons, List.flatMap_cons]
    have hrest := hhead chars
    generalize chars.flatMap (escapeChar '\'') = more at ih hrest ⊢
    by_cases hback : c = '\\'
    · subst hback
      show replaceSingleQuotes ('\\' :: '\\' :: replaceDoubleQuotes more) = '\\' :: '\\' :: _
      rw [hstep (.inr (by simp)), hstep (.inr hrest), ih]
      rfl
    by_cases hsingle : c = '\''
    · subst hsingle
      show '\'' :: replaceSingleQuotes (replaceDoubleQuotes more) = '\'' :: _
      rw [ih]
      rfl
    by_cases hquote : c = '"'
    · subst hquote
      show replaceSingleQuotes ('\\' :: '"' :: replaceDoubleQuotes more) = '\\' :: '"' :: _
      rw [hstep (.inr (by simp)), hstep (.inl (by decide)), ih]
      rfl
    unfold escapeChar
    rw [if_neg (not_or.mpr ⟨hback, hsingle⟩), if_neg (not_or.mpr ⟨hback, hquote⟩)]
    split_ifs with hctl
    · have hdigit (n : ℕ) (hn : n < 16) : n.digitChar ≠ '\\' ∧ n.digitChar ≠ '"' := by
        have := digitChar_plain n hn
        simp only [List.mem_cons, List.not_mem_nil, or_false, not_or] at this
        exact ⟨this.1, this.2.2⟩
      have h₁ := hdigit (c.toNat / 16) (by omega)
      have h₂ := hdigit (c.toNat % 16) (by omega)
      simp only [List.cons_append, List.nil_append, hdouble, if_neg h₁.2, if_neg h₂.2]
      show replaceSingleQuotes ('\\' :: 'u' :: '0' :: '0' :: _ :: _ :: _) = _
      rw [hstep (.inr (by simp)), hstep (.inl (by decide)), hstep (.inl (by decide)), hstep (.inl (by decide)),
        hstep (.inl h₁.1), hstep (.inl h₂.1), ih]
      rfl
    · rw [List.cons_append, List.nil_append, hdouble, if_neg hquote]
      exact (hstep (.inl hback)).trans (congrArg _ ih)

theorem parseMember_escaped (hreads : quoting.Reads) {quote : Char} (hquote : quote = '\'' ∨ quote = '"')
    (member : String) (rest : List Char) :
    parseGeminiPartialArgMember quoting quote (escaped quote member ++ quote :: rest) = .ok (member, rest) := by
  unfold parseGeminiPartialArgMember escaped
  rw [scanMember_escaped hquote]
  rcases hquote with rfl | rfl
  · simp only [if_true]
    rw [requote]
    exact congrArg (Except.map _) (hreads member)
  · exact congrArg (Except.map _) (hreads member)

theorem Rendering.head (h : Rendering path text) : ∀ c ∈ text.head?, c = '.' ∨ c = '[' := by
  cases h <;> simp

theorem Rendering.parseSegments (h : Rendering path text) (hreads : quoting.Reads) (jsonPath whole : String) :
    parseSegments quoting jsonPath whole text = .ok path := by
  induction h with
  | root => rw [Gemini.parseSegments]
  | dotted member hne hplain hlast h ih =>
    rename_i path text
    have hin : ∀ c ∈ member.toList, (c ≠ '.' && c ≠ '[') = true := fun c hc => by
      have := hplain c hc
      simp only [List.mem_cons, not_or] at this
      simp [this.1, this.2.1]
    have hnext : text.takeWhile (fun c => c ≠ '.' && c ≠ '[') = [] ∧
        text.dropWhile (fun c => c ≠ '.' && c ≠ '[') = text := by
      cases htext : text with
      | nil => exact ⟨rfl, rfl⟩
      | cons c rest =>
        have hc : (c ≠ '.' && c ≠ '[') = false := by
          rcases h.head c (htext ▸ rfl) with rfl | rfl <;> rfl
        have hno : ¬(c ≠ '.' && c ≠ '[') = true := fun h => Bool.false_ne_true (hc.symm.trans h)
        exact ⟨List.takeWhile_cons_of_neg hno, List.dropWhile_cons_of_neg hno⟩
    have hlist : member.toList ≠ [] := fun h => hne (String.toList_eq_nil_iff.mp h)
    have hclean : (member.toList.any fun c => c = ']' || c = '*' || c = '?') ≠ true := by
      intro hany
      obtain ⟨c, hc, hbad⟩ := List.any_eq_true.mp hany
      have := hplain c hc
      simp_all
    rw [Gemini.parseSegments.eq_def]
    dsimp only
    rw [if_pos rfl, List.takeWhile_append_of_pos hin, List.dropWhile_append_of_pos hin, hnext.1, hnext.2, List.append_nil,
      if_neg hlist, if_neg hclean, ih, String.ofList_toList]
    rfl
  | quoted member quote hquote h ih =>
    rename_i path text
    have hmember := parseMember_escaped hreads hquote member (']' :: text)
    rw [Gemini.parseSegments.eq_def]
    dsimp only
    rw [if_neg (by decide), if_pos rfl, if_pos (by simpa using hquote)]
    split
    · rename_i heq
      rw [hmember] at heq
      cases heq
    · rename_i heq
      rw [hmember] at heq
      cases heq
      rw [ih]
      rfl
    · rename_i hno heq
      exact absurd (heq.symm.trans hmember) (by simpa using hno _ _)
  | index index hindex h ih =>
    rename_i path text
    have hdigits : ∀ c ∈ Nat.toDigits 10 index, isDigit c = true := fun c hc => by
      simpa [isDigit, Char.isDigit, Char.le_def] using Nat.isDigit_of_mem_toDigits (by decide) (by decide) hc
    have hend : isDigit ']' = false := by decide
    have htake : (Nat.toDigits 10 index ++ ']' :: text).takeWhile isDigit = Nat.toDigits 10 index := by
      rw [List.takeWhile_append_of_pos hdigits, List.takeWhile_cons_of_neg (by simp [hend]), List.append_nil]
    have hdrop : (Nat.toDigits 10 index ++ ']' :: text).dropWhile isDigit = ']' :: text := by
      rw [List.dropWhile_append_of_pos hdigits, List.dropWhile_cons_of_neg (by simp [hend])]
    have hatoi : indexSegment quoting jsonPath (Nat.toDigits 10 index) = .ok (.index index) := by
      have hread : (Nat.toDigits 10 index).foldl (fun n c => 10 * n + (c.toNat - '0'.toNat)) 0 = index := by
        rw [← Nat.ofDigitChars_eq_foldl]
        exact Nat.ofDigitChars_ten_toDigits
      have hsmall : index < 2 ^ 63 := hindex.trans_lt (by decide)
      unfold indexSegment atoi
      dsimp only
      rw [hread, if_pos hsmall]
      exact if_neg (not_lt.mpr hindex)
    obtain ⟨d, more, hcons⟩ := List.exists_cons_of_ne_nil (Nat.toDigits_ne_nil (n := index) (b := 10))
    have hquote : ¬(d = '\'' || d = '"') = true := by
      have hd := hdigits d (hcons ▸ List.mem_cons_self)
      rintro hor
      rcases Bool.or_eq_true _ _ ▸ hor with h | h <;> rw [of_decide_eq_true h] at hd <;> revert hd <;> decide
    rw [hcons] at htake hdrop hatoi ⊢
    rw [Gemini.parseSegments.eq_def]
    dsimp only
    rw [if_neg (by decide), if_pos rfl]
    simp only [List.cons_append]
    rw [if_neg hquote]
    split
    · rename_i heq
      rw [← List.cons_append, hdrop] at heq
      cases heq
      rw [← List.cons_append, htake, if_neg (List.cons_ne_nil _ _), hatoi]
      dsimp only
      rw [ih]
      rfl
    · rename_i hno
      exact absurd hdrop (hno text)

theorem last_append (more : List Char) (hmore : ∀ c ∈ more.getLast?, isSpace c = false)
    (htext : ∀ c ∈ text.getLast?, isSpace c = false) : ∀ c ∈ (more ++ text).getLast?, isSpace c = false := by
  rw [List.getLast?_append]
  cases hlast : text.getLast? with
  | none => exact hmore
  | some c => exact fun c' hc' => htext c' (hlast ▸ hc')

theorem Rendering.last (h : Rendering path text) : ∀ c ∈ text.getLast?, isSpace c = false := by
  have hbracket (more : List Char) : ∀ c ∈ (more ++ [']']).getLast?, isSpace c = false := by
    intro c hc
    rw [List.getLast?_concat] at hc
    cases hc
    decide
  induction h with
  | root => simp
  | dotted member hne hplain hlast h ih =>
    rename_i path text
    cases path with
    | nil =>
      cases h
      have hlist : member.toList ≠ [] := fun h => hne (String.toList_eq_nil_iff.mp h)
      rw [List.append_nil, List.getLast?_cons_of_ne_nil hlist]
      exact hlast rfl
    | cons s path =>
      have htext : text ≠ [] := by
        rintro rfl
        cases h
      rwa [← List.cons_append, List.getLast?_append_of_ne_nil _ htext]
  | quoted member quote hquote h ih =>
    simpa using last_append _ (hbracket ('[' :: quote :: (escaped quote member ++ [quote]))) ih
  | index index hindex h ih => simpa using last_append _ (hbracket ('[' :: Nat.toDigits 10 index)) ih

theorem parsePath_rendering (hreads : quoting.Reads) (h : Rendering path text) (hne : path ≠ []) :
    parseGeminiPartialArgPath quoting (String.ofList ('$' :: text)) = .ok path := by
  have htrim : trimSpace (String.ofList ('$' :: text)) = String.ofList ('$' :: text) := by
    have hfront : ('$' :: text).dropWhile isSpace = '$' :: text := List.dropWhile_cons_of_neg (by decide)
    have hlast := last_append ['$'] (fun c hc => by cases hc; decide) h.last
    have hback : ('$' :: text).rdropWhile isSpace = '$' :: text :=
      List.rdropWhile_eq_self_iff.mpr fun hne => by simp [hlast _ (List.getLast?_eq_some_getLast hne)]
    rw [trimSpace, String.toList_ofList, hfront, hback]
  unfold parseGeminiPartialArgPath
  dsimp only
  rw [htrim, String.toList_ofList]
  have hsegments := h.parseSegments hreads (String.ofList ('$' :: text)) (String.ofList ('$' :: text))
  obtain ⟨s, rest, rfl⟩ := List.exists_cons_of_ne_nil hne
  simp only [hsegments]

/-! ## Strings -/

def hexValue (c : Char) : ℕ := if c.isDigit then c.toNat - 48 else c.toNat - 87

def unescape : List Char → List Char
  | '\\' :: 'u' :: '0' :: '0' :: a :: b :: rest => Char.ofNat (16 * hexValue a + hexValue b) :: unescape rest
  | '\\' :: c :: rest => c :: unescape rest
  | c :: rest => c :: unescape rest
  | [] => []

/-- Strings as JSON has them. -/
def jsonStrings : Quoting where
  quoted s := "\"" ++ s ++ "\""
  unmarshal text := .ok (String.ofList (unescape (text.toList.drop 1).dropLast))

theorem jsonStrings_reads : jsonStrings.Reads := by
  have hchars (chars : List Char) : unescape (chars.flatMap (escapeChar '"')) = chars := by
    induction chars with
    | nil => rfl
    | cons c chars ih =>
      rw [List.flatMap_cons]
      generalize chars.flatMap (escapeChar '"') = more at ih ⊢
      unfold escapeChar
      split_ifs with hc hctl
      · rcases hc with rfl | rfl
        · exact congrArg _ ih
        · exact congrArg _ ih
      · have hhex : ∀ n < 16, hexValue n.digitChar = n := by decide
        show Char.ofNat (16 * hexValue _ + hexValue _) :: unescape more = _
        rw [hhex _ (by omega), hhex _ (by omega), Nat.div_add_mod, Char.ofNat_toNat, ih]
      · rw [List.cons_append, List.nil_append, unescape.eq_def]
        split <;> simp_all
  intro member
  refine congrArg Except.ok ?_
  rw [String.toList_ofList, List.cons_append, List.drop_one, List.tail_cons, List.dropLast_concat, escaped, hchars,
    String.ofList_toList]

/-- A member after a dot, an index, and a member with a quote in it. -/
theorem parsePath_rendering_mixed : parseGeminiPartialArgPath jsonStrings (String.ofList
    ('$' :: '.' :: ("items".toList ++ '[' :: (Nat.toDigits 10 2 ++ ']' :: '[' :: '\'' ::
      (escaped '\'' "it's" ++ '\'' :: ']' :: []))))) = .ok [.member "items", .index 2, .member "it's"] :=
  parsePath_rendering jsonStrings_reads (.dotted "items" (by decide) (by simp) (fun h => by cases h)
    (.index 2 (by decide) (.quoted "it's" '\'' (.inl rfl) .root))) (List.cons_ne_nil _ _)

end Vancine.Streams.Gemini
