import Vancine.StreamScanner.Goroutines

/-!
# The payloads of a stream

What the lines of an upstream hold, what the scanner makes of them, and when the two are the same.
-/

namespace Vancine.StreamScanner

open Lib

/-! ## What the lines hold -/

/-- The trimmed payload of a data line. -/
def payload? (line : String) : Option String :=
  if "data:".toList <+: line.toList then
    let data := trimSpace (String.ofList (line.toList.drop 5))
    if data = "" then none else some data
  else none

def doneToken : List Char := "[DONE]".toList

/-- A line that ends the stream, with or without `data:` before the token. -/
def EndsStream (line : String) : Prop :=
  doneToken <+: line.toList ∨ ∃ data ∈ payload? line, doneToken <+: data.toList

instance (line : String) : Decidable (EndsStream line) :=
  inferInstanceAs (Decidable (_ ∨ _))

/-- The payloads before the end of the stream. -/
def payloads (lines : List String) : List String :=
  (lines.takeWhile fun line => ¬ EndsStream line).filterMap payload?

/-! ## What the scanner delivers -/

/-- What the scanner delivers of the lines, with nothing in its way. -/
def delivered (maxBytes : ℕ) : List String → List String
  | [] => []
  | raw :: rest =>
    if maxBytes ≤ raw.utf8ByteSize then []
    else
      match readLine (dropCR raw) with
      | .skip => delivered maxBytes rest
      | .data payload => payload :: delivered maxBytes rest
      | .done => []

/-! ## Single lines -/

theorem dataPrefix_toList : "data:".toList = ['d', 'a', 't', 'a', ':'] := rfl

theorem doneToken_toList : "[DONE]".toList = ['[', 'D', 'O', 'N', 'E', ']'] := rfl

variable {line : String}

theorem not_data_of_token (h : doneToken <+: line.toList) : ¬ "data:".toList <+: line.toList := by
  intro hdata
  obtain ⟨t, ht⟩ := h
  obtain ⟨u, hu⟩ := hdata
  rw [← ht, doneToken, dataPrefix_toList, doneToken_toList] at hu
  exact absurd (List.cons.inj hu).1 (by decide)

theorem payload?_token (h : doneToken <+: line.toList) : payload? line = none := by
  rw [payload?, if_neg (not_data_of_token h)]

/-- What begins with a character that is no space still does when it is trimmed. -/
theorem head_trimSpace {c : Char} (hc : isSpace c = false) (t : List Char) :
    (trimSpace (String.ofList (c :: t))).toList.head? = some c := by
  have hfront : (c :: t).dropWhile isSpace = c :: t := List.dropWhile_cons_of_neg (by simp [hc])
  rw [trimSpace, String.toList_ofList, String.toList_ofList, hfront]
  have hne : (c :: t).rdropWhile isSpace ≠ [] := by
    intro hnil
    have := List.rdropWhile_eq_nil_iff.mp hnil c List.mem_cons_self
    rw [hc] at this
    cases this
  obtain ⟨d, u, hd⟩ := List.exists_cons_of_ne_nil hne
  obtain ⟨v, hv⟩ := List.rdropWhile_prefix isSpace (c :: t)
  rw [hd, List.cons_append] at hv
  rw [hd, List.head?_cons, (List.cons.inj hv).1]

theorem short_of_data (h : "data:".toList <+: line.toList) (hshort : line.utf8ByteSize < 6) : line = "data:" := by
  obtain ⟨t, ht⟩ := h
  have hline : line = "data:" ++ String.ofList t := by
    apply String.ext
    rw [String.toList_append, ← ht]
    exact congrArg _ String.toList_ofList.symm
  have hsize : ("data:" ++ String.ofList t).utf8ByteSize = 5 + (String.ofList t).utf8ByteSize := by
    rw [String.utf8ByteSize_append]
    rfl
  have hzero : (String.ofList t).utf8ByteSize = 0 := by
    rw [hline, hsize] at hshort
    omega
  rw [hline, String.utf8ByteSize_eq_zero_iff.mp hzero]
  rfl

/-! ## The reading of a line -/

theorem readLine_data (h : "data:".toList <+: line.toList) : readLine line =
      match payload? line with
      | none => .skip
      | some data => if doneToken <+: data.toList then .done else .data data := by
  have htake : line.toList.take 5 = "data:".toList := by
    obtain ⟨t, ht⟩ := h
    rw [← ht]
    rfl
  rw [payload?, if_pos h]
  by_cases hshort : line.utf8ByteSize < 6
  · have hempty : trimSpace (String.ofList (line.toList.drop 5)) = "" := by
      rw [short_of_data h hshort]
      exact trimSpace_empty
    simp only [readLine, if_pos hshort, hempty, if_true]
  · rw [readLine, if_neg hshort, if_neg (by simp [htake])]
    dsimp only
    by_cases hempty : trimSpace (String.ofList (line.toList.drop 5)) = ""
    · rw [if_pos hempty, if_pos hempty]
    · rw [if_neg hempty, if_neg hempty]
      rfl

theorem readLine_token (h : doneToken <+: line.toList) : ∃ payload, readLine line = .data payload := by
  obtain ⟨t, ht⟩ := h
  have hshort : ¬ line.utf8ByteSize < 6 := by
    have hline : line = "[DONE]" ++ String.ofList t := by
      apply String.ext
      rw [String.toList_append, ← ht, doneToken]
      exact congrArg _ String.toList_ofList.symm
    rw [hline, String.utf8ByteSize_append]
    have : "[DONE]".utf8ByteSize = 6 := rfl
    omega
  have hdrop : line.toList.drop 5 = ']' :: t := by
    rw [← ht]
    rfl
  have hhead := head_trimSpace (c := ']') (by decide) t
  refine ⟨trimSpace (String.ofList (']' :: t)), ?_⟩
  have htake : line.toList.take 6 = "[DONE]".toList := by
    rw [← ht]
    rfl
  rw [readLine, if_neg hshort, if_neg (by simp [htake]), hdrop]
  dsimp only
  rw [if_neg, if_neg]
  · rintro ⟨u, hu⟩
    rw [← hu, doneToken_toList] at hhead
    exact absurd (Option.some.inj hhead) (by decide)
  · intro hempty
    rw [hempty] at hhead
    cases hhead

theorem readLine_other (hdata : ¬ "data:".toList <+: line.toList) (htoken : ¬ doneToken <+: line.toList) :
    readLine line = .skip := by
  unfold readLine
  split
  · rfl
  · rw [if_pos]
    constructor
    · intro h
      exact hdata (h ▸ List.take_prefix 5 line.toList)
    · intro h
      rw [doneToken, ← h] at htoken
      exact htoken (List.take_prefix 6 line.toList)

/-- What the scanner reads in a line that does not end the stream. -/
theorem readLine_payload (h : ¬ EndsStream line) : readLine line =
      match payload? line with
      | none => .skip
      | some data => .data data := by
  have htoken : ¬ doneToken <+: line.toList := fun htoken => h (Or.inl htoken)
  by_cases hdata : "data:".toList <+: line.toList
  · rw [readLine_data hdata]
    cases hp : payload? line with
    | none => rfl
    | some data => exact if_neg fun hdone => h (Or.inr ⟨data, hp, hdone⟩)
  · rw [readLine_other hdata htoken, payload?, if_neg hdata]

theorem readLine_done (hdata : "data:".toList <+: line.toList) (h : EndsStream line) : readLine line = .done := by
  rcases h with htoken | ⟨data, hp, hdone⟩
  · exact absurd hdata (not_data_of_token htoken)
  · rw [readLine_data hdata, Option.mem_def.mp hp]
    exact if_pos hdone

theorem token_of_not_data (hdata : ¬ "data:".toList <+: line.toList) (h : EndsStream line) :
    doneToken <+: line.toList := by
  rcases h with htoken | ⟨data, hp, _⟩
  · exact htoken
  · rw [payload?, if_neg hdata] at hp
    cases hp

/-! ## All lines -/

variable {rest : List String}

theorem payloads_cons_of_ends (h : EndsStream line) : payloads (line :: rest) = [] := by
  rw [payloads, List.takeWhile_cons_of_neg (by simp [h])]
  rfl

theorem payloads_cons (h : ¬ EndsStream line) : payloads (line :: rest) = (payload? line).toList ++ payloads rest := by
  rw [payloads, List.takeWhile_cons_of_pos (by simp [h]), List.filterMap_cons]
  cases payload? line <;> rfl

/-- The first line in the limit that ends the stream has `data:` before the token; without one, there are no payloads
from the first line beyond the limit on. -/
def EndsWithData (maxBytes : ℕ) (lines : List String) : Prop :=
  match ((lines.takeWhile fun raw => raw.utf8ByteSize < maxBytes).map dropCR).find? (EndsStream ·) with
  | some line => "data:".toList <+: line.toList
  | none => payloads ((lines.dropWhile fun raw => raw.utf8ByteSize < maxBytes).map dropCR) = []

instance (maxBytes : ℕ) (lines : List String) : Decidable (EndsWithData maxBytes lines) := by
  unfold EndsWithData
  split <;> infer_instance

theorem endsWithData_cons {maxBytes : ℕ} {raw : String} (hlimit : raw.utf8ByteSize < maxBytes)
    (h : ¬ EndsStream (dropCR raw)) : EndsWithData maxBytes (raw :: rest) ↔ EndsWithData maxBytes rest := by
  unfold EndsWithData
  rw [List.takeWhile_cons_of_pos (by simp [hlimit]), List.dropWhile_cons_of_pos (by simp [hlimit]), List.map_cons,
    List.find?_cons_of_neg (by simp [h])]

/-- The scanner delivers what the lines hold exactly where the token does not stand alone. -/
theorem delivered_eq_iff (maxBytes : ℕ) (lines : List String) :
    delivered maxBytes lines = payloads (lines.map dropCR) ↔ EndsWithData maxBytes lines := by
  induction lines with
  | nil => exact iff_of_true rfl rfl
  | cons raw rest ih =>
    by_cases hlimit : raw.utf8ByteSize < maxBytes
    · rw [delivered, if_neg (by omega), List.map_cons]
      by_cases hends : EndsStream (dropCR raw)
      · rw [payloads_cons_of_ends hends]
        unfold EndsWithData
        rw [List.takeWhile_cons_of_pos (by simp [hlimit]), List.map_cons, List.find?_cons_of_pos (by simp [hends])]
        by_cases hdata : "data:".toList <+: (dropCR raw).toList
        · rw [readLine_done hdata hends]
          exact iff_of_true rfl hdata
        · obtain ⟨payload, hp⟩ := readLine_token (token_of_not_data hdata hends)
          rw [hp]
          exact iff_of_false (List.cons_ne_nil _ _) hdata
      · rw [payloads_cons hends, readLine_payload hends, endsWithData_cons hlimit hends, ← ih]
        cases payload? (dropCR raw) with
        | none => rfl
        | some data => simp
    · rw [delivered, if_pos (by omega)]
      unfold EndsWithData
      rw [List.takeWhile_cons_of_neg (by simp [hlimit]), List.dropWhile_cons_of_neg (by simp [hlimit])]
      exact eq_comm

end Vancine.StreamScanner
