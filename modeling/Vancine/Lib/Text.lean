import Vancine.Lib.Scan

/-!
# Trimming text

White space as Unicode has it, and a text without it at either end.
-/

namespace Lib

/-- `unicode.IsSpace`. -/
def isSpace (c : Char) : Bool :=
  c ∈ ['\t', '\n', '\x0b', '\x0c', '\r', ' ', '\u0085', '\u00a0', '\u1680', '\u2028', '\u2029',
    '\u202f', '\u205f', '\u3000'] || ('\u2000' ≤ c && c ≤ '\u200a')

theorem isSpace_toNat {c : Char} (h : isSpace c = true) : c.toNat ≤ 32 ∨ 133 ≤ c.toNat := by
  simp only [isSpace, Bool.or_eq_true, Bool.and_eq_true, decide_eq_true_eq, Char.le_def, UInt32.le_iff_toNat_le,
    List.mem_cons, List.not_mem_nil, or_false] at h
  rcases h with h | h
  · rcases h with rfl | rfl | rfl | rfl | rfl | rfl | rfl | rfl | rfl | rfl | rfl | rfl | rfl | rfl <;> decide
  · have hlow : '\u2000'.val.toNat = 8192 := by decide
    have hval : c.toNat = c.val.toNat := rfl
    omega

/-- `strings.TrimSpace`. -/
@[irreducible] def trimSpace (s : String) : String :=
  String.ofList ((s.toList.dropWhile isSpace).rdropWhile isSpace)

@[simp] theorem trimSpace_empty : trimSpace "" = "" := by
  rw [trimSpace]
  rfl

/-- A trimmed text stays as it is. -/
@[simp] theorem trimSpace_trimSpace (s : String) : trimSpace (trimSpace s) = trimSpace s := by
  unfold trimSpace
  rw [String.toList_ofList]
  exact congrArg String.ofList (trimBy_trimBy isSpace s.toList)

variable {s : String}

/-- So does a text without white space. -/
theorem trimSpace_of_no_space (h : ∀ c ∈ s.toList, isSpace c = false) : trimSpace s = s := by
  have hfront : s.toList.dropWhile isSpace = s.toList := by
    cases hs : s.toList with
    | nil => rfl
    | cons c t => exact List.dropWhile_cons_of_neg (by simp [h c (hs ▸ List.mem_cons_self)])
  have hback : s.toList.rdropWhile isSpace = s.toList :=
    List.rdropWhile_eq_self_iff.mpr fun hne => by simp [h _ (List.getLast_mem hne)]
  rw [trimSpace, hfront, hback, String.ofList_toList]

theorem trimSpace_of_all (h : (s.toList.all fun c => !isSpace c) = true) : trimSpace s = s :=
  trimSpace_of_no_space (by simpa using h)

/-- A text is blank when white space is all it has. -/
theorem isSpace_of_trimSpace_eq_empty (h : trimSpace s = "") {c : Char} (hc : c ∈ s.toList) : isSpace c = true := by
  rw [trimSpace] at h
  have hback : (s.toList.dropWhile isSpace).rdropWhile isSpace = [] := by
    have := congrArg String.toList h
    rwa [String.toList_ofList] at this
  have hfront : s.toList.dropWhile isSpace = [] := by
    by_contra hne
    have hhead := List.rdropWhile_eq_nil_iff.mp hback _ (List.head_mem hne)
    rw [List.head_dropWhile_not isSpace] at hhead
    cases hhead
  exact List.dropWhile_eq_nil_iff.mp hfront c hc

end Lib
