import Mathlib.Data.String.Basic

/-!
# Lower case

`strings.ToLower`. The table of Unicode outside ASCII is a parameter.
-/

namespace Lib

def toLower (lowerRune : Char → Char) (s : String) : String :=
  String.ofList (s.toList.map fun c => if c.toNat < 128 then c.toLower else lowerRune c)

theorem toLower_of_lower (lowerRune : Char → Char) {s : String} (h : ∀ c ∈ s.toList, c.toNat < 128 ∧ c.toLower = c) :
    toLower lowerRune s = s := by
  rw [toLower, List.map_congr_left fun c hc => if_pos (h c hc).1, List.map_congr_left fun c hc => (h c hc).2,
    List.map_id', String.ofList_toList]

end Lib
