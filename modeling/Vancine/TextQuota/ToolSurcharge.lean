import Mathlib.Data.List.Sort
import Mathlib.Data.Prod.Lex
import Mathlib.Data.Rat.Floor
import Mathlib.Data.String.Basic
import Vancine.Lib.Runs

/-!
# Tool surcharges

The tool calls of a request are collected with their prices, sorted, merged in place, and charged. The merged items
and, as far as the decimals hold the quotients, the charge depend on the calls alone.
-/

namespace Vancine.TextQuota

open Lib

/-! ## Items -/

/-- `ToolSurchargeItem`; a price is the decimal that its float64 is written as. -/
structure ToolSurchargeItem where
  name : String
  count : ℤ
  price : ℚ

/-- `math.MaxInt`. -/
def maxInt : ℤ := 2 ^ 63 - 1

/-- `sort.Slice`: a permutation in the order of `less`, if it orders. -/
structure SliceSort (α : Type) where
  sort : (α → α → Bool) → List α → List α
  perm : ∀ less l, (sort less l).Perm l
  sorted : ∀ less l, (∀ a b, less a b = true → less b a = false) →
    (∀ a b c, less b a = false → less c b = false → less c a = false) →
    (sort less l).Pairwise fun a b => less b a = false

def itemLess (a b : ToolSurchargeItem) : Bool :=
  if a.name = b.name then a.price < b.price else a.name < b.name

/-- What the loop makes of an item and the last one kept. -/
def joinItems (last item : ToolSurchargeItem) : Option ToolSurchargeItem :=
  if last.name = item.name ∧ last.price = item.price then
    some { last with count := if item.count > maxInt - last.count then maxInt else last.count + item.count }
  else none

/-- `mergeToolSurchargeItems`. -/
def mergeToolSurchargeItems (s : SliceSort ToolSurchargeItem) (items : List ToolSurchargeItem) :
    List ToolSurchargeItem :=
  if items = [] then [] else joinInPlace joinItems (s.sort itemLess items)

/-! ## The charge -/

/-- Rounded to an integer, halves away from zero. -/
def roundAway (q : ℚ) : ℤ := if 0 ≤ q then ⌊q + 1 / 2⌋ else -⌊-q + 1 / 2⌋

/-- `Div` of decimals: sixteen digits after the point. -/
def decimalDiv (x y : ℚ) : ℚ := roundAway (x / y * 10 ^ 16) / 10 ^ 16

/-- What an item costs. -/
def itemSurcharge (groupRatio quotaPerUnit : ℚ) (item : ToolSurchargeItem) : ℚ :=
  decimalDiv (item.price * item.count) 1000 * groupRatio * quotaPerUnit

def surchargeOf (groupRatio quotaPerUnit : ℚ) (items : List ToolSurchargeItem) : ℚ :=
  (items.map (itemSurcharge groupRatio quotaPerUnit)).sum

/-- `collectToolSurchargeItem`; a price that is no finite number is `none`. -/
def collectToolSurchargeItem (getToolPriceForModel : String → String → Option ℚ) (items : List ToolSurchargeItem)
    (name : String) (count : ℤ) (modelName : String) : List ToolSurchargeItem :=
  if count ≤ 0 then items
  else
    match getToolPriceForModel name modelName with
    | none => items
    | some price => if price ≤ 0 then items else items ++ [⟨name, count, price⟩]

/-- What the surcharge reads of a request; the built-in tools come in the order of a map iteration. -/
structure SurchargeRequest where
  builtInTools : List (String × Option ℤ)
  isResponsesMode : Bool
  modelName : String
  claudeWebSearchRequests : ℤ
  geminiGoogleSearchCall : Bool

/-- The items that `calculateTextToolCallSurcharge` collects. -/
def collectedItems (getToolPriceForModel : String → String → Option ℚ) (request : SurchargeRequest) :
    List ToolSurchargeItem :=
  let collect := fun items name count => collectToolSurchargeItem getToolPriceForModel items name count request.modelName
  let items := request.builtInTools.foldl
    (fun items tool => match tool.2 with | none => items | some callCount => collect items tool.1 callCount) []
  let items :=
    if ¬request.isResponsesMode ∧ "search-preview".toList.isSuffixOf request.modelName.toList then
      collect items "web_search_preview" 1
    else items
  let items := collect items "web_search" request.claudeWebSearchRequests
  if request.geminiGoogleSearchCall then collect items "google_search" 1 else items

/-- `calculateTextToolCallSurcharge`: the items of the summary, and the charge. -/
def calculateTextToolCallSurcharge (s : SliceSort ToolSurchargeItem)
    (getToolPriceForModel : String → String → Option ℚ) (groupRatio quotaPerUnit : ℚ) (request : SurchargeRequest) :
    List ToolSurchargeItem × ℚ :=
  let merged := mergeToolSurchargeItems s (collectedItems getToolPriceForModel request)
  (merged, surchargeOf groupRatio quotaPerUnit merged)

/-! ## Merging -/

/-- An item's tool and price, in the order in which they are sorted. -/
def ToolSurchargeItem.key (item : ToolSurchargeItem) : String ×ₗ ℚ := toLex (item.name, item.price)

section Merge

variable {a b : ToolSurchargeItem} {items : List ToolSurchargeItem}

theorem key_eq_iff : a.key = b.key ↔ a.name = b.name ∧ a.price = b.price := by
  simp [ToolSurchargeItem.key]

theorem itemLess_iff : itemLess a b = true ↔ a.key < b.key := by
  rw [ToolSurchargeItem.key, ToolSurchargeItem.key, Prod.Lex.toLex_lt_toLex, itemLess]
  by_cases hname : a.name = b.name
  · simp [hname]
  · simp [hname]

theorem itemLess_false : itemLess b a = false ↔ a.key ≤ b.key := by
  rw [← not_lt, ← itemLess_iff, Bool.not_eq_true]

variable (s : SliceSort ToolSurchargeItem)

theorem sort_sorted (items : List ToolSurchargeItem) : (s.sort itemLess items).Pairwise fun a b => a.key ≤ b.key :=
  (s.sorted itemLess items (fun _ _ h => itemLess_false.mpr (itemLess_iff.mp h).le)
    fun _ _ _ hab hbc => itemLess_false.mpr ((itemLess_false.mp hab).trans (itemLess_false.mp hbc))).imp
    itemLess_false.mp

theorem joins_items : Joins joinItems ToolSurchargeItem.key ToolSurchargeItem.count maxInt where
  of_ne a b h := by rw [joinItems, if_neg fun hsame => h (key_eq_iff.mpr hsame)]
  of_eq a b h := by
    refine ⟨{ a with count := if b.count > maxInt - a.count then maxInt else a.count + b.count },
      by rw [joinItems, if_pos (key_eq_iff.mp h)], rfl, ?_⟩
    show (if b.count > maxInt - a.count then maxInt else a.count + b.count) = min (a.count + b.count) maxInt
    split <;> omega

theorem merge_merged (hcounts : ∀ item ∈ items, 0 < item.count ∧ item.count ≤ maxInt) :
    Merged ToolSurchargeItem.key ToolSurchargeItem.count maxInt items (mergeToolSurchargeItems s items) := by
  have hperm := s.perm itemLess items
  have hruns := runs_spec joins_items (sort_sorted s items) fun item hitem =>
    ⟨(hcounts item (hperm.mem_iff.mp hitem)).1.le, (hcounts item (hperm.mem_iff.mp hitem)).2⟩
  rw [← joinInPlace_eq] at hruns
  rw [mergeToolSurchargeItems]
  split
  · next hnil =>
    subst hnil
    exact ⟨List.Pairwise.nil, fun k => Iff.rfl, fun a ha => absurd ha List.not_mem_nil⟩
  · refine ⟨hruns.sorted, fun k => ?_, fun a ha => ?_⟩
    · rw [hruns.keys k]
      simp only [hperm.mem_iff]
    · rw [hruns.counts a ha, total_perm hperm]

theorem roundAway_intCast (n : ℤ) : roundAway n = n := by
  have hhalf : ∀ m : ℤ, ⌊(m : ℚ) + 1 / 2⌋ = m := fun m => by
    rw [Int.floor_eq_iff]
    constructor <;> norm_num
  rw [roundAway]
  split
  · exact hhalf n
  · have h := hhalf (-n)
    rw [Int.cast_neg] at h
    rw [h, neg_neg]

/-- A price of at most thirteen decimals is divided by a thousand exactly. -/
theorem decimalDiv_exact {price : ℚ} {n : ℤ} (h : price * 10 ^ 13 = n) (count : ℤ) :
    decimalDiv (price * count) 1000 = price / 1000 * count := by
  have hscaled : price * count / 1000 * 10 ^ 16 = ((n * count : ℤ) : ℚ) := by
    rw [Int.cast_mul, ← h]
    ring
  rw [decimalDiv, hscaled, roundAway_intCast, Int.cast_mul, ← h]
  ring

/-- The calls of one tool at one price. -/
def totalCount (items : List ToolSurchargeItem) (name : String) (price : ℚ) : ℤ :=
  ((items.filter fun item => item.name = name ∧ item.price = price).map ToolSurchargeItem.count).sum

theorem totalCount_eq (items : List ToolSurchargeItem) (item : ToolSurchargeItem) :
    totalCount items item.name item.price = total ToolSurchargeItem.key ToolSurchargeItem.count items item.key := by
  have hfilter : (items.filter fun other => other.name = item.name ∧ other.price = item.price) =
      items.filter fun other => other.key = item.key :=
    List.filter_congr fun other _ => decide_eq_decide.mpr key_eq_iff.symm
  rw [totalCount, total, hfilter]

/-- The merged items: every tool and price once, with the calls of its items added up. -/
theorem merge_items (hcounts : ∀ item ∈ items, 0 < item.count ∧ item.count ≤ maxInt) :
    ((mergeToolSurchargeItems s items).map fun item => (item.name, item.price)).Nodup ∧
      (∀ pair, pair ∈ (mergeToolSurchargeItems s items).map (fun item => (item.name, item.price)) ↔
        pair ∈ items.map fun item => (item.name, item.price)) ∧
      ∀ item ∈ mergeToolSurchargeItems s items, item.count = min (totalCount items item.name item.price) maxInt := by
  have hmerged := merge_merged s hcounts
  refine ⟨?_, fun pair => ?_, fun item hitem => ?_⟩
  · exact List.pairwise_map.mpr (hmerged.sorted.imp fun hlt heq => hlt.ne (congrArg toLex heq))
  · have hkeys := hmerged.keys (toLex pair)
    simpa only [List.mem_map, ToolSurchargeItem.key, EmbeddingLike.apply_eq_iff_eq] using hkeys
  · rw [hmerged.counts item hitem, totalCount_eq]

theorem merge_perm (s s' : SliceSort ToolSurchargeItem) {items items' : List ToolSurchargeItem}
    (hcounts : ∀ item ∈ items, 0 < item.count ∧ item.count ≤ maxInt) (hperm : items.Perm items') :
    mergeToolSurchargeItems s items = mergeToolSurchargeItems s' items' := by
  refine Merged.unique (fun a b hkey hcount => ?_) hperm (merge_merged s hcounts)
    (merge_merged s' fun item hitem => hcounts item (hperm.mem_iff.mpr hitem))
  obtain ⟨hname, hprice⟩ := key_eq_iff.mp hkey
  cases a
  cases b
  simp_all

theorem sum_count_mul (items : List ToolSurchargeItem) (c : ℚ) :
    (items.map fun item => (item.count : ℚ) * c).sum = ((items.map ToolSurchargeItem.count).sum : ℤ) * c := by
  induction items with
  | nil => simp
  | cons item items ih =>
    rw [List.map_cons, List.sum_cons, ih, List.map_cons, List.sum_cons, Int.cast_add]
    ring

/-- Merging does not change the charge, as long as prices have at most thirteen decimals and no total is cut off. -/
theorem surchargeOf_merge (hcounts : ∀ item ∈ items, 0 < item.count ∧ item.count ≤ maxInt)
    (hprices : ∀ item ∈ items, ∃ n : ℤ, item.price * 10 ^ 13 = n)
    (htotal : ∀ item ∈ items, totalCount items item.name item.price ≤ maxInt) (groupRatio quotaPerUnit : ℚ) :
    surchargeOf groupRatio quotaPerUnit (mergeToolSurchargeItems s items) =
      surchargeOf groupRatio quotaPerUnit items := by
  have hmerged := merge_merged s hcounts
  have hcover : ∀ b ∈ items, ∃ a ∈ mergeToolSurchargeItems s items, a.key = b.key := fun b hb =>
    (hmerged.keys b.key).mpr ⟨b, hb, rfl⟩
  rw [surchargeOf, surchargeOf, ← sum_by_key (itemSurcharge groupRatio quotaPerUnit) hmerged.sorted hcover]
  congr 1
  refine List.map_congr_left fun a ha => ?_
  obtain ⟨b, hb, hkey⟩ := (hmerged.keys a.key).mp ⟨a, ha, rfl⟩
  obtain ⟨hname, hprice⟩ := key_eq_iff.mp hkey
  obtain ⟨n, hn⟩ := hprices b hb
  rw [hprice] at hn
  have hle : totalCount items a.name a.price ≤ maxInt := by
    have h := htotal b hb
    rwa [hname, hprice] at h
  have hcount : a.count = ((items.filter fun b => b.key = a.key).map ToolSurchargeItem.count).sum := by
    rw [hmerged.counts a ha, ← totalCount_eq, min_eq_left hle, totalCount_eq]
    rfl
  have hsame : ∀ b ∈ items.filter fun b => b.key = a.key,
      itemSurcharge groupRatio quotaPerUnit b = (b.count : ℚ) * (a.price / 1000 * groupRatio * quotaPerUnit) := by
    intro b hb
    have hb := (key_eq_iff.mp (of_decide_eq_true (List.mem_filter.mp hb).2)).2
    rw [itemSurcharge, hb, decimalDiv_exact hn]
    ring
  rw [itemSurcharge, decimalDiv_exact hn, List.map_congr_left hsame, sum_count_mul, ← hcount]
  ring

end Merge

/-- One sort that `sort.Slice` may be. -/
def insertionSlice : SliceSort ToolSurchargeItem where
  sort less l := l.insertionSort fun a b => less b a = false
  perm less l := List.perm_insertionSort _ l
  sorted less l hasymm htrans := by
    have htotal : Std.Total fun a b : ToolSurchargeItem => less b a = false := ⟨fun a b => by
      cases h : less b a with
      | false => exact Or.inl rfl
      | true => exact Or.inr (hasymm b a h)⟩
    have : IsTrans ToolSurchargeItem fun a b => less b a = false := ⟨htrans⟩
    exact List.pairwise_insertionSort _ l

end Vancine.TextQuota
