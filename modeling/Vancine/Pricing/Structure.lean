import Vancine.Pricing.Text

/-!
# Cutting an expression at an operator

`splitExpressionAtTopLevel` walks over a source once, with a bracket depth and the quote it is in. A
question mark at depth zero outside quotes makes it give up and return the source.

The texts that the editor writes are balanced: brackets match and every quote is closed. Over such a text
the walk comes back to where it was, so a join of balanced parts is cut at the joins and nowhere else.
-/

namespace Vancine.Pricing

open Lib

/-! ## The walk -/

/-- `depth` after a character outside quotes. -/
def depthAfter (depth : ℤ) (c : Char) : ℤ :=
  if c = '(' ∨ c = '[' ∨ c = '{' then depth + 1
  else if c = ')' ∨ c = ']' ∨ c = '}' then depth - 1
  else depth

/-- The loop of `splitExpressionAtTopLevel`: `skip` characters of an operator are left to pass over, or one
that is `escaped`, and `part` is what was read since `start`. None at a question mark. -/
def splitLoop (operator : Text) (skip : ℕ) (depth : ℤ) (quote : Option Char) (escaped : Bool)
    (part : Text) : Text → Option (List Text)
  | [] => some [part]
  | c :: rest =>
    if 0 < skip then splitLoop operator (skip - 1) depth quote escaped part rest
    else if escaped then splitLoop operator 0 depth quote false (part ++ [c]) rest
    else
      match quote with
      | some q =>
        if c = '\\' then splitLoop operator 0 depth quote true (part ++ [c]) rest
        else if c = q then splitLoop operator 0 depth none false (part ++ [c]) rest
        else splitLoop operator 0 depth quote false (part ++ [c]) rest
      | none =>
        if c = '"' ∨ c = '\'' then splitLoop operator 0 depth (some c) false (part ++ [c]) rest
        else if depthAfter depth c ≠ 0 then
          splitLoop operator 0 (depthAfter depth c) none false (part ++ [c]) rest
        else if c = '?' then none
        else if operator <+: c :: rest then
          (splitLoop operator (operator.length - 1) 0 none false [] rest).map (part :: ·)
        else splitLoop operator 0 0 none false (part ++ [c]) rest

def splitExpressionAtTopLevel (source operator : Text) : List Text :=
  match splitLoop operator 0 0 none false [] source with
  | none => [trim source]
  | some parts => (parts.map trim).filter (· ≠ [])

/-! ## Balanced texts -/

def isStructural (c : Char) : Bool := c ∈ ['"', '\'', '(', ')', '[', ']', '{', '}']

/-- Characters that mean something to a walk at depth zero. -/
def isOperator (c : Char) : Bool := c ∈ ['?', '*', '&']

/-- A text over which a walk comes back to where it was; at depth zero when `top`. -/
inductive Balanced : Bool → Text → Prop
  | nil {top : Bool} : Balanced top []
  | char {top : Bool} {c : Char} {rest : Text} (hc : isStructural c = false)
      (htop : top = true → isOperator c = false) (hrest : Balanced top rest) : Balanced top (c :: rest)
  | quoted {top : Bool} (text : Text) {rest : Text} (hrest : Balanced top rest) :
      Balanced top (stringify text ++ rest)
  | parens {top : Bool} {inner rest : Text} (hinner : Balanced false inner)
      (hrest : Balanced top rest) : Balanced top ('(' :: (inner ++ ')' :: rest))

namespace Balanced

variable {top : Bool} {v w : Text}

theorem append (hv : Balanced top v) (hw : Balanced top w) : Balanced top (v ++ w) := by
  induction hv with
  | nil => exact hw
  | char hc htop _ ih => exact .char hc htop (ih hw)
  | quoted text _ ih =>
    rw [List.append_assoc]
    exact .quoted text (ih hw)
  | parens hinner _ _ ih =>
    rw [List.cons_append, List.append_assoc, List.cons_append]
    exact .parens hinner (ih hw)

theorem inside (hv : Balanced top v) : Balanced false v := by
  induction hv with
  | nil => exact .nil
  | char hc _ _ ih => exact .char hc (fun h => absurd h Bool.false_ne_true) ih
  | quoted text _ ih => exact .quoted text ih
  | parens hinner _ _ ih => exact .parens hinner ih

theorem of_chars (h : ∀ c ∈ w, isStructural c = false ∧ (top = true → isOperator c = false)) : Balanced top w := by
  induction w with
  | nil => exact .nil
  | cons c w ih =>
    rw [List.forall_mem_cons] at h
    exact .char h.1.1 h.1.2 (ih h.2)

theorem of_all (h : (w.all fun c => !isStructural c && (!top || !isOperator c)) = true) : Balanced top w := by
  apply of_chars
  intro c hc
  have hboth := List.all_eq_true.mp h c hc
  simp only [Bool.and_eq_true, Bool.or_eq_true, Bool.not_eq_true'] at hboth
  exact ⟨hboth.1, fun htop => hboth.2.resolve_left (by simp [htop])⟩

theorem string (top : Bool) (text : Text) : Balanced top (stringify text) := by
  have h : Balanced top (stringify text ++ []) := quoted text .nil
  rwa [List.append_nil] at h

theorem wrap (top : Bool) (h : Balanced false w) : Balanced top ('(' :: (w ++ [')'])) := .parens h .nil

end Balanced

/-! ## The walk over balanced texts -/

section Walk

variable {operator : Text} {depth : ℤ} {part rest : Text}

theorem splitLoop_escaped (w : Text) (hw : ∀ c ∈ w, isPlain c = true) :
    splitLoop operator 0 depth (some '"') false part (w ++ rest) =
      splitLoop operator 0 depth (some '"') false (part ++ w) rest := by
  induction w generalizing part with
  | nil => rw [List.nil_append, List.append_nil]
  | cons c w ih =>
    rw [List.forall_mem_cons] at hw
    have hc := hw.1
    unfold isPlain at hc
    simp only [Bool.and_eq_true, decide_eq_true_eq] at hc
    rw [List.cons_append, splitLoop, if_neg (Nat.lt_irrefl 0), if_neg Bool.false_ne_true]
    rw [if_neg hc.1.2, if_neg hc.1.1, ih hw.2, List.append_assoc]
    rfl

theorem splitLoop_quoted (text : Text) : splitLoop operator 0 depth (some '"') false part (escape text ++ '"' :: rest) =
      splitLoop operator 0 depth none false (part ++ escape text ++ ['"']) rest := by
  induction text generalizing part with
  | nil =>
    show splitLoop operator 0 depth (some '"') false part ('"' :: rest) = _
    rw [splitLoop, if_neg (Nat.lt_irrefl 0), if_neg Bool.false_ne_true]
    rw [if_neg (by decide), if_pos rfl]
    simp [escape]
  | cons c text ih =>
    have happ : escape (c :: text) = escapeChar c ++ escape text := rfl
    rw [happ, List.append_assoc]
    rcases escapeChar_cases c with ⟨hc, h⟩ | ⟨-, e, w, h, -, hw⟩
    · have hone : ∀ d ∈ [c], isPlain d = true := fun d hd => List.mem_singleton.mp hd ▸ hc
      rw [h, splitLoop_escaped [c] hone, ih, List.append_assoc part]
    · -- the backslash, what it escapes, and the digits of a code unit
      have hslash : splitLoop operator 0 depth (some '"') false part
          ('\\' :: e :: (w ++ (escape text ++ '"' :: rest))) =
          splitLoop operator 0 depth (some '"') false (part ++ ['\\'] ++ [e])
            (w ++ (escape text ++ '"' :: rest)) := by
        rw [splitLoop, if_neg (Nat.lt_irrefl 0), if_neg Bool.false_ne_true]
        rw [if_pos rfl, splitLoop, if_neg (Nat.lt_irrefl 0), if_pos rfl]
      rw [h, List.cons_append, List.cons_append, hslash, splitLoop_escaped w hw, ih]
      simp

variable {o : Char} {os : Text}

theorem not_starts {c : Char} (h : c ≠ o) : ¬(o :: os <+: c :: rest) := by
  intro hpre
  exact h (List.cons_prefix_cons.mp hpre).1.symm

/-- The walk passes over a character that is no bracket, no quote and, at depth zero, no operator. -/
theorem splitLoop_char (ho : isOperator o = true) {c : Char} (hc : isStructural c = false)
    (htop : depth ≠ 0 ∨ isOperator c = false) : splitLoop (o :: os) 0 depth none false part (c :: rest) =
      splitLoop (o :: os) 0 depth none false (part ++ [c]) rest := by
  have hbracket : depthAfter depth c = depth := by
    unfold depthAfter
    unfold isStructural at hc
    simp only [List.mem_cons, decide_eq_false_iff_not, not_or] at hc
    rw [if_neg (by simp [hc]), if_neg (by simp [hc])]
  have hquote : ¬(c = '"' ∨ c = '\'') := by
    unfold isStructural at hc
    simp only [List.mem_cons, decide_eq_false_iff_not, not_or] at hc
    simp [hc]
  rw [splitLoop, if_neg (Nat.lt_irrefl 0), if_neg Bool.false_ne_true]
  rw [if_neg hquote, hbracket]
  by_cases hd : depth = 0
  · have hop : isOperator c = false := htop.resolve_left (not_not.mpr hd)
    have hne : c ≠ o := by
      rintro rfl
      rw [ho] at hop
      cases hop
    have hask : c ≠ '?' := by
      rintro rfl
      cases hop
    rw [if_neg (not_not.mpr hd), if_neg hask, if_neg (not_starts hne), hd]
  · rw [if_pos hd]

theorem splitLoop_open (hd : 0 ≤ depth) : splitLoop operator 0 depth none false part ('(' :: rest) =
      splitLoop operator 0 (depth + 1) none false (part ++ ['(']) rest := by
  rw [splitLoop, if_neg (Nat.lt_irrefl 0), if_neg Bool.false_ne_true]
  have hafter : depthAfter depth '(' = depth + 1 := rfl
  rw [if_neg (by decide), hafter, if_pos (by omega)]

theorem splitLoop_close (ho : isOperator o = true) : splitLoop (o :: os) 0 (depth + 1) none false part (')' :: rest) =
      splitLoop (o :: os) 0 depth none false (part ++ [')']) rest := by
  have hne : ')' ≠ o := by
    rintro rfl
    cases ho
  have hafter : depthAfter (depth + 1) ')' = depth := Int.add_sub_cancel depth 1
  rw [splitLoop, if_neg (Nat.lt_irrefl 0), if_neg Bool.false_ne_true]
  rw [if_neg (by decide), hafter]
  by_cases hd : depth = 0
  · rw [if_neg (not_not.mpr hd), if_neg (by decide), if_neg (not_starts hne), hd]
  · rw [if_pos hd]

theorem splitLoop_balanced (ho : isOperator o = true) {top : Bool} {w : Text} (hw : Balanced top w)
    (hd : 0 ≤ depth) (htop : depth = 0 → top = true) : splitLoop (o :: os) 0 depth none false part (w ++ rest) =
      splitLoop (o :: os) 0 depth none false (part ++ w) rest := by
  induction hw generalizing depth part rest with
  | nil => rw [List.nil_append, List.append_nil]
  | char hc hop _ ih =>
    rw [List.cons_append, splitLoop_char ho hc, ih hd htop, List.append_assoc]
    · rfl
    · by_cases hzero : depth = 0
      · exact .inr (hop (htop hzero))
      · exact .inl hzero
  | @quoted _ text w _ ih =>
    have hopen : splitLoop (o :: os) 0 depth none false part
        ('"' :: (escape text ++ '"' :: (w ++ rest))) = splitLoop (o :: os) 0 depth (some '"') false (part ++ ['"'])
          (escape text ++ '"' :: (w ++ rest)) := by
      rw [splitLoop, if_neg (Nat.lt_irrefl 0), if_neg Bool.false_ne_true]
      rw [if_pos (.inl rfl)]
    have happ : stringify text ++ w ++ rest = '"' :: (escape text ++ '"' :: (w ++ rest)) := by
      simp [stringify]
    rw [happ, hopen, splitLoop_quoted, ih hd htop]
    simp [stringify]
  | @parens _ inner w _ _ ihinner ih =>
    have happ : '(' :: (inner ++ ')' :: w) ++ rest = '(' :: (inner ++ ')' :: (w ++ rest)) := by simp
    have hne : depth + 1 ≠ 0 := by omega
    rw [happ, splitLoop_open hd, ihinner (by omega) (fun h => absurd h hne), splitLoop_close ho,
      ih hd htop]
    simp

theorem splitLoop_skip (w : Text) : splitLoop operator w.length depth none false part (w ++ rest) =
      splitLoop operator 0 depth none false part rest := by
  induction w with
  | nil => rfl
  | cons c w ih =>
    have hpos : 0 < (c :: w).length := Nat.succ_pos w.length
    rw [List.cons_append, splitLoop, if_pos hpos]
    exact ih

theorem splitLoop_operator (ho : o = '*' ∨ o = '&') : splitLoop (o :: os) 0 0 none false part (o :: os ++ rest) =
      (splitLoop (o :: os) 0 0 none false [] rest).map (part :: ·) := by
  rw [List.cons_append, splitLoop, if_neg (Nat.lt_irrefl 0), if_neg Bool.false_ne_true]
  have hafter : depthAfter 0 o = 0 := by
    rcases ho with rfl | rfl <;> decide
  have hquote : ¬(o = '"' ∨ o = '\'') := by
    rcases ho with rfl | rfl <;> decide
  have hask : o ≠ '?' := by
    rcases ho with rfl | rfl <;> decide
  have hstarts : o :: os <+: o :: (os ++ rest) := List.prefix_append (o :: os) rest
  rw [if_neg hquote, hafter, if_neg (not_not.mpr rfl), if_neg hask, if_pos hstarts]
  exact congrArg (Option.map (part :: ·)) (splitLoop_skip os)

end Walk

/-! ## Cutting a join -/

section Join

variable {o : Char} {os : Text}

/-- A part that the walk leaves alone and `trim` too. -/
structure Part (text : Text) : Prop where
  balanced : Balanced true text
  tight : Tight isSpace text
  nonempty : text ≠ []

theorem splitLoop_join (ho : o = '*' ∨ o = '&') {pad : Text} (hpad : ∀ c ∈ pad, isSpace c = true)
    (first : Text) (parts : List Text) (hfirst : Part first) (hparts : ∀ part ∈ parts, Part part) :
    ∃ pieces, splitLoop (o :: os) 0 0 none false pad
        ((' ' :: (o :: os ++ [' '])).intercalate (first :: parts)) = some pieces ∧
      pieces.map trim = first :: parts := by
  have hop : isOperator o = true := by
    rcases ho with rfl | rfl <;> rfl
  have hspace : ∀ c ∈ [' '], isSpace c = true := List.forall_mem_singleton.mpr rfl
  induction parts generalizing pad first with
  | nil =>
    refine ⟨[pad ++ first], ?_, ?_⟩
    · have h : splitLoop (o :: os) 0 0 none false pad (first ++ []) =
          splitLoop (o :: os) 0 0 none false (pad ++ first) [] :=
        splitLoop_balanced hop hfirst.balanced (Int.le_refl 0) (fun _ => rfl)
      rw [List.append_nil] at h
      rw [List.intercalate_singleton, h]
      rfl
    · have h := trimBy_pad hpad hfirst.tight (t := []) nofun
      rw [List.append_nil] at h
      exact congrArg ([·]) h
  | cons next parts ih =>
    rw [List.forall_mem_cons] at hparts
    obtain ⟨pieces, hpieces, htrim⟩ := ih hspace next hparts.1 hparts.2
    refine ⟨(pad ++ first ++ [' ']) :: pieces, ?_, ?_⟩
    · rw [List.intercalate_cons_cons, List.append_assoc,
        splitLoop_balanced hop hfirst.balanced (Int.le_refl 0) (fun _ => rfl), List.cons_append,
        splitLoop_char hop (by decide) (.inr (by decide)), List.append_assoc (o :: os),
        splitLoop_operator ho, List.singleton_append, splitLoop_char hop (by decide) (.inr (by decide)), List.nil_append,
        hpieces]
      rfl
    · rw [List.map_cons, htrim]
      exact congrArg (· :: _) (trimBy_pad hpad hfirst.tight hspace)

theorem splitExpressionAtTopLevel_join (ho : o = '*' ∨ o = '&') {parts : List Text} (hne : parts ≠ [])
    (hparts : ∀ part ∈ parts, Part part) :
    splitExpressionAtTopLevel ((' ' :: (o :: os ++ [' '])).intercalate parts) (o :: os) = parts := by
  cases parts with
  | nil => exact absurd rfl hne
  | cons first parts =>
    rw [List.forall_mem_cons] at hparts
    have hjoin : ∃ pieces, splitLoop (o :: os) 0 0 none false []
        ((' ' :: (o :: os ++ [' '])).intercalate (first :: parts)) = some pieces ∧ pieces.map trim = first :: parts :=
      splitLoop_join ho (List.forall_mem_nil _) first parts hparts.1 hparts.2
    obtain ⟨pieces, hpieces, htrim⟩ := hjoin
    unfold splitExpressionAtTopLevel
    rw [hpieces]
    dsimp only
    rw [htrim, List.filter_eq_self]
    intro part hpart
    rcases List.mem_cons.mp hpart with rfl | hpart
    · exact decide_eq_true hparts.1.nonempty
    · exact decide_eq_true (hparts.2 part hpart).nonempty

end Join

end Vancine.Pricing
