import Mathlib.Algebra.BigOperators.Group.List.Basic
import Mathlib.Data.List.Count
import Mathlib.Tactic.Ring
import Vancine.Lib.Float64

/-!
# Token counts for a price expression

`BuildTieredTokenParams` turns the usage of a request into the variables of a price expression: `p` and `c` are what no
other variable of the expression counts. A count is the integer that its float64 holds.
-/

namespace Vancine.TextQuota

open Lib

/-! ## Usage -/

/-- `CachedTokenDetails`. -/
structure CachedTokenDetails where
  textTokens : Option ℤ
  imageTokens : Option ℤ
  audioTokens : Option ℤ

/-- `InputTokenDetails`, with the counts that are billed. -/
structure InputTokenDetails where
  cachedTokens : ℤ
  cachedTokensDetails : Option CachedTokenDetails
  cachedCreationTokens : ℤ
  cacheWriteTokens : ℤ
  audioTokens : ℤ
  imageTokens : ℤ

/-- `CacheCreationTokensTotal`. -/
def InputTokenDetails.cacheCreationTokensTotal (d : InputTokenDetails) : ℤ :=
  let total := max d.cacheWriteTokens d.cachedCreationTokens
  if total < 0 then 0 else total

structure OutputTokenDetails where
  audioTokens : ℤ
  imageTokens : ℤ

/-- `Usage`, with the counts that are billed. -/
structure Usage where
  promptTokens : ℤ
  completionTokens : ℤ
  usageSemantic : String
  usageSource : String
  promptTokensDetails : InputTokenDetails
  completionTokenDetails : OutputTokenDetails
  claudeCacheCreation5mTokens : ℤ
  claudeCacheCreation1hTokens : ℤ

theorem InputTokenDetails.cacheCreationTokensTotal_nonneg (d : InputTokenDetails) : 0 ≤ d.cacheCreationTokensTotal := by
  unfold cacheCreationTokensTotal
  dsimp only
  split <;> omega

/-! ## The variables -/

/-- `TokenParams`. -/
structure TokenParams where
  p : ℤ
  c : ℤ
  len : ℤ
  cr : ℤ
  cc : ℤ
  cc1h : ℤ
  img : ℤ
  imgCR : ℤ
  imgO : ℤ
  ai : ℤ
  ao : ℤ

/-- Whether the other modalities fit into what is left of the cached tokens. -/
def modalitiesFit : ℤ → List (Option ℤ) → Bool
  | _, [] => true
  | remaining, none :: counts => modalitiesFit remaining counts
  | remaining, some count :: counts =>
    if count < 0 ∨ count > remaining then false else modalitiesFit (remaining - count) counts

/-- The cached image tokens of a breakdown that is valid. -/
def validBreakdown (usage : Usage) : Option ℤ :=
  match usage.promptTokensDetails.cachedTokensDetails with
  | none => none
  | some details =>
    match details.imageTokens with
    | none => none
    | some cachedImage =>
      let cached := usage.promptTokensDetails.cachedTokens
      let image := usage.promptTokensDetails.imageTokens
      if 0 ≤ cachedImage ∧ cachedImage ≤ cached ∧ cachedImage ≤ image ∧ cached ≤ usage.promptTokens ∧
          image ≤ usage.promptTokens - (cached - cachedImage) ∧
          modalitiesFit (cached - cachedImage) [details.textTokens, details.audioTokens] then some cachedImage
      else none

/-- What is moved from `cr` and `img` to `img_cr`. -/
def cachedImageSplit (usage : Usage) (isClaudeUsageSemantic : Bool) (usedVars : String → Bool) : Option ℤ :=
  if usedVars "img_cr" ∧ ¬isClaudeUsageSemantic then validBreakdown usage else none

/-- A float64 less another, if the expression uses the variable. -/
def subtractUsed (used : Bool) (x k : ℤ) : ℤ := if used then float64 (x - k) else x

/-- `BuildTieredTokenParams`. -/
def buildTieredTokenParams (usage : Usage) (isClaudeUsageSemantic : Bool) (usedVars : String → Bool) : TokenParams :=
  let p := float64 usage.promptTokens
  let c := float64 usage.completionTokens
  let cr := float64 usage.promptTokensDetails.cachedTokens
  let cc5m :=
    if usage.usageSemantic = "anthropic" then float64 usage.claudeCacheCreation5mTokens
    else float64 usage.promptTokensDetails.cacheCreationTokensTotal
  let cc1h := if usage.usageSemantic = "anthropic" then float64 usage.claudeCacheCreation1hTokens else 0
  let img := float64 usage.promptTokensDetails.imageTokens
  let split := cachedImageSplit usage isClaudeUsageSemantic usedVars
  let imgCR := split.elim 0 float64
  let cr := if split.isSome then float64 (cr - imgCR) else cr
  let img := if split.isSome then float64 (img - imgCR) else img
  let ai := float64 usage.promptTokensDetails.audioTokens
  let imgO := float64 usage.completionTokenDetails.imageTokens
  let ao := float64 usage.completionTokenDetails.audioTokens
  let inputLen :=
    if isClaudeUsageSemantic then float64 (float64 (float64 (p + cr) + cc5m) + cc1h) else p
  let p' :=
    if isClaudeUsageSemantic then if usedVars "cr" then p else float64 (p + cr)
    else
      let p := subtractUsed (usedVars "cr") p cr
      let p := subtractUsed (usedVars "cc") p cc5m
      let p := subtractUsed (usedVars "cc1h") p cc1h
      let p := subtractUsed (usedVars "img") p img
      let p := subtractUsed (usedVars "img_cr") p imgCR
      subtractUsed (usedVars "ai") p ai
  let c' :=
    if isClaudeUsageSemantic then c
    else subtractUsed (usedVars "ao") (subtractUsed (usedVars "img_o") c imgO) ao
  { p := if p' < 0 then 0 else p', c := if c' < 0 then 0 else c', len := inputLen, cr := cr, cc := cc5m, cc1h := cc1h,
    img := img, imgCR := imgCR, imgO := imgO, ai := ai, ao := ao }

/-! ## Categories -/

/-- The input variables beside `p`. -/
inductive InputCategory
  | cr | cc | cc1h | img | imgCR | ai

def InputCategory.all : List InputCategory := [.cr, .cc, .cc1h, .img, .imgCR, .ai]

def InputCategory.var : InputCategory → String
  | .cr => "cr"
  | .cc => "cc"
  | .cc1h => "cc1h"
  | .img => "img"
  | .imgCR => "img_cr"
  | .ai => "ai"

def InputCategory.amount (params : TokenParams) : InputCategory → ℤ
  | .cr => params.cr
  | .cc => params.cc
  | .cc1h => params.cc1h
  | .img => params.img
  | .imgCR => params.imgCR
  | .ai => params.ai

/-- A count, if its variable is used. -/
def ifUsed (used : Bool) (n : ℤ) : ℤ := if used then n else 0

/-- The tokens of the input variables that the expression uses beside `p`. -/
def usedInput (params : TokenParams) (usedVars : String → Bool) : ℤ :=
  (InputCategory.all.map fun k => ifUsed (usedVars k.var) (k.amount params)).sum

/-- The tokens of the output variables that the expression uses beside `c`. -/
def usedOutput (params : TokenParams) (usedVars : String → Bool) : ℤ :=
  ifUsed (usedVars "img_o") params.imgO + ifUsed (usedVars "ao") params.ao

def TokenParams.Nonneg (params : TokenParams) : Prop :=
  0 ≤ params.p ∧ 0 ≤ params.c ∧ 0 ≤ params.len ∧ 0 ≤ params.imgO ∧ 0 ≤ params.ao ∧
    ∀ k : InputCategory, 0 ≤ k.amount params

/-- Every count is one that a float64 holds exactly. -/
structure Usage.Counted (usage : Usage) : Prop where
  prompt : 0 ≤ usage.promptTokens ∧ usage.promptTokens ≤ 2 ^ 53
  completion : 0 ≤ usage.completionTokens ∧ usage.completionTokens ≤ 2 ^ 53
  cached : 0 ≤ usage.promptTokensDetails.cachedTokens ∧ usage.promptTokensDetails.cachedTokens ≤ 2 ^ 53
  created : usage.promptTokensDetails.cacheCreationTokensTotal ≤ 2 ^ 53
  created5m : 0 ≤ usage.claudeCacheCreation5mTokens ∧ usage.claudeCacheCreation5mTokens ≤ 2 ^ 53
  created1h : 0 ≤ usage.claudeCacheCreation1hTokens ∧ usage.claudeCacheCreation1hTokens ≤ 2 ^ 53
  image : 0 ≤ usage.promptTokensDetails.imageTokens ∧ usage.promptTokensDetails.imageTokens ≤ 2 ^ 53
  audio : 0 ≤ usage.promptTokensDetails.audioTokens ∧ usage.promptTokensDetails.audioTokens ≤ 2 ^ 53
  imageOut : 0 ≤ usage.completionTokenDetails.imageTokens ∧ usage.completionTokenDetails.imageTokens ≤ 2 ^ 53
  audioOut : 0 ≤ usage.completionTokenDetails.audioTokens ∧ usage.completionTokenDetails.audioTokens ≤ 2 ^ 53

section Conserve

variable {usage : Usage} {usedVars : String → Bool}

theorem validBreakdown_bounds {n : ℤ} (h : validBreakdown usage = some n) :
    0 ≤ n ∧ n ≤ usage.promptTokensDetails.cachedTokens ∧ n ≤ usage.promptTokensDetails.imageTokens := by
  unfold validBreakdown at h
  split at h
  · cases h
  · split at h
    · cases h
    · dsimp only at h
      split at h
      · next hvalid =>
        cases h
        exact ⟨hvalid.1, hvalid.2.1, hvalid.2.2.1⟩
      · cases h

theorem cachedImageSplit_bounds {isClaude : Bool} {n : ℤ} (h : cachedImageSplit usage isClaude usedVars = some n) :
    0 ≤ n ∧ n ≤ usage.promptTokensDetails.cachedTokens ∧ n ≤ usage.promptTokensDetails.imageTokens := by
  unfold cachedImageSplit at h
  split at h
  · exact validBreakdown_bounds h
  · cases h

theorem float64_of_le {n : ℤ} (h : 0 ≤ n ∧ n ≤ 2 ^ 53) : float64 n = n := float64_eq_self (by omega)

/-- The categories of a usage whose counts a float64 holds: the counts themselves, less what is split off. -/
theorem categories_eq (usedVars : String → Bool) (h : usage.Counted) (isClaude : Bool) :
    let params := buildTieredTokenParams usage isClaude usedVars
    let split := (cachedImageSplit usage isClaude usedVars).getD 0
    params.cr = usage.promptTokensDetails.cachedTokens - split ∧
    params.cc = (if usage.usageSemantic = "anthropic" then usage.claudeCacheCreation5mTokens
      else usage.promptTokensDetails.cacheCreationTokensTotal) ∧
    params.cc1h = (if usage.usageSemantic = "anthropic" then usage.claudeCacheCreation1hTokens else 0) ∧
    params.img = usage.promptTokensDetails.imageTokens - split ∧ params.imgCR = split ∧
    params.ai = usage.promptTokensDetails.audioTokens ∧ params.imgO = usage.completionTokenDetails.imageTokens ∧
    params.ao = usage.completionTokenDetails.audioTokens := by
  have hcreated := usage.promptTokensDetails.cacheCreationTokensTotal_nonneg
  dsimp only [buildTieredTokenParams]
  rw [float64_of_le h.cached, float64_of_le h.created5m, float64_of_le h.created1h, float64_of_le h.image,
    float64_of_le h.audio, float64_of_le h.imageOut, float64_of_le h.audioOut, float64_of_le ⟨hcreated, h.created⟩]
  cases hsplit : cachedImageSplit usage isClaude usedVars with
  | none => simp
  | some n =>
    have hn := cachedImageSplit_bounds hsplit
    have := h.cached
    have := h.image
    have hfloat : float64 n = n := float64_of_le (by omega)
    have hcr : float64 (usage.promptTokensDetails.cachedTokens - n) = usage.promptTokensDetails.cachedTokens - n :=
      float64_of_le (by omega)
    have himg : float64 (usage.promptTokensDetails.imageTokens - n) = usage.promptTokensDetails.imageTokens - n :=
      float64_of_le (by omega)
    simp [hfloat, hcr, himg]

theorem follows_subtractUsed (used : Bool) {x exact k : ℤ} (h : Follows x exact) (hle : exact ≤ 2 ^ 53)
    (hk : 0 ≤ k) (hk' : k ≤ 2 ^ 53) :
    Follows (subtractUsed used x k) (exact - ifUsed used k) ∧ exact - ifUsed used k ≤ 2 ^ 53 := by
  cases used with
  | false => exact ⟨by simpa [subtractUsed, ifUsed] using h, by simpa [ifUsed] using hle⟩
  | true => exact ⟨by simpa [subtractUsed, ifUsed] using h.sub hle hk hk', by rw [ifUsed, if_pos rfl]; omega⟩

theorem counted_amounts (usedVars : String → Bool) (h : usage.Counted) (isClaude : Bool) (k : InputCategory) :
    0 ≤ k.amount (buildTieredTokenParams usage isClaude usedVars) ∧
      k.amount (buildTieredTokenParams usage isClaude usedVars) ≤ 2 ^ 53 := by
  obtain ⟨hcr, hcc, hcc1h, himg, himgCR, hai, -, -⟩ := categories_eq usedVars h isClaude
  have hcreated := usage.promptTokensDetails.cacheCreationTokensTotal_nonneg
  have hsplit : 0 ≤ (cachedImageSplit usage isClaude usedVars).getD 0 ∧
      (cachedImageSplit usage isClaude usedVars).getD 0 ≤ usage.promptTokensDetails.cachedTokens ∧
      (cachedImageSplit usage isClaude usedVars).getD 0 ≤ usage.promptTokensDetails.imageTokens := by
    cases hsplit : cachedImageSplit usage isClaude usedVars with
    | none => exact ⟨le_refl 0, h.cached.1, h.image.1⟩
    | some n => exact cachedImageSplit_bounds hsplit
  have := h.cached
  have := h.image
  cases k with
  | cr => rw [InputCategory.amount, hcr]; omega
  | cc =>
    rw [InputCategory.amount, hcc]
    split
    · exact h.created5m
    · exact ⟨hcreated, h.created⟩
  | cc1h =>
    rw [InputCategory.amount, hcc1h]
    split
    · exact h.created1h
    · omega
  | img => rw [InputCategory.amount, himg]; omega
  | imgCR => rw [InputCategory.amount, himgCR]; omega
  | ai => rw [InputCategory.amount, hai]; exact h.audio

theorem usedInput_eq (params : TokenParams) : usedInput params usedVars =
    ifUsed (usedVars "cr") (InputCategory.cr.amount params) + ifUsed (usedVars "cc") (InputCategory.cc.amount params) +
      ifUsed (usedVars "cc1h") (InputCategory.cc1h.amount params) +
      ifUsed (usedVars "img") (InputCategory.img.amount params) +
      ifUsed (usedVars "img_cr") (InputCategory.imgCR.amount params) +
      ifUsed (usedVars "ai") (InputCategory.ai.amount params) := by
  simp only [usedInput, InputCategory.all, List.map_cons, List.map_nil, List.sum_cons, List.sum_nil, InputCategory.var]
  ring

/-- `p` is what the used input variables leave of the prompt, but never negative. -/
theorem buildTieredTokenParams_p (usedVars : String → Bool) (h : usage.Counted) :
    (buildTieredTokenParams usage false usedVars).p =
      max (usage.promptTokens - usedInput (buildTieredTokenParams usage false usedVars) usedVars) 0 := by
  have hamount := counted_amounts usedVars h false
  have hstart : Follows (float64 usage.promptTokens) usage.promptTokens := Or.inl (float64_of_le h.prompt)
  obtain ⟨h₁, le₁⟩ := follows_subtractUsed (usedVars "cr") hstart h.prompt.2 (hamount .cr).1 (hamount .cr).2
  obtain ⟨h₂, le₂⟩ := follows_subtractUsed (usedVars "cc") h₁ le₁ (hamount .cc).1 (hamount .cc).2
  obtain ⟨h₃, le₃⟩ := follows_subtractUsed (usedVars "cc1h") h₂ le₂ (hamount .cc1h).1 (hamount .cc1h).2
  obtain ⟨h₄, le₄⟩ := follows_subtractUsed (usedVars "img") h₃ le₃ (hamount .img).1 (hamount .img).2
  obtain ⟨h₅, le₅⟩ := follows_subtractUsed (usedVars "img_cr") h₄ le₄ (hamount .imgCR).1 (hamount .imgCR).2
  obtain ⟨h₆, -⟩ := follows_subtractUsed (usedVars "ai") h₅ le₅ (hamount .ai).1 (hamount .ai).2
  have hclamp := h₆.clamp
  rw [usedInput_eq]
  refine Eq.trans ?_ (hclamp.trans (congrArg (max · 0) (by ring)))
  rfl

theorem buildTieredTokenParams_c (usedVars : String → Bool) (h : usage.Counted) :
    (buildTieredTokenParams usage false usedVars).c =
      max (usage.completionTokens - usedOutput (buildTieredTokenParams usage false usedVars) usedVars) 0 := by
  obtain ⟨-, -, -, -, -, -, himgO, hao⟩ := categories_eq usedVars h false
  have hstart : Follows (float64 usage.completionTokens) usage.completionTokens := Or.inl (float64_of_le h.completion)
  obtain ⟨h₁, le₁⟩ := follows_subtractUsed (usedVars "img_o") hstart h.completion.2 h.imageOut.1 h.imageOut.2
  obtain ⟨h₂, -⟩ := follows_subtractUsed (usedVars "ao") h₁ le₁ h.audioOut.1 h.audioOut.2
  have hclamp := h₂.clamp
  rw [usedOutput, himgO, hao]
  refine Eq.trans ?_ (hclamp.trans (congrArg (max · 0) (by ring)))
  show (if subtractUsed (usedVars "ao") (subtractUsed (usedVars "img_o") (float64 usage.completionTokens)
      (float64 usage.completionTokenDetails.imageTokens)) (float64 usage.completionTokenDetails.audioTokens) < 0 then 0
    else subtractUsed (usedVars "ao") (subtractUsed (usedVars "img_o") (float64 usage.completionTokens)
      (float64 usage.completionTokenDetails.imageTokens)) (float64 usage.completionTokenDetails.audioTokens)) = _
  rw [float64_of_le h.imageOut, float64_of_le h.audioOut]

theorem buildTieredTokenParams_nonneg (h : usage.Counted) (isClaude : Bool) :
    (buildTieredTokenParams usage isClaude usedVars).Nonneg := by
  obtain ⟨hcr, hcc, hcc1h, -, -, -, himgO, hao⟩ := categories_eq usedVars h isClaude
  have hamount := counted_amounts usedVars h isClaude
  have hclamp : ∀ x : ℤ, 0 ≤ if x < 0 then 0 else x := by
    intro x
    split <;> omega
  refine ⟨hclamp _, hclamp _, ?_, himgO ▸ h.imageOut.1, hao ▸ h.audioOut.1, fun k => (hamount k).1⟩
  have hp : 0 ≤ float64 usage.promptTokens := by rw [float64_of_le h.prompt]; exact h.prompt.1
  cases isClaude with
  | false => exact hp
  | true =>
    exact float64_nonneg (Int.add_nonneg (float64_nonneg (Int.add_nonneg
      (float64_nonneg (Int.add_nonneg hp (hamount .cr).1)) (hamount .cc).1)) (hamount .cc1h).1)

end Conserve

/-! ## Tokens -/

inductive CacheTTL
  | fiveMinutes | oneHour
  deriving DecidableEq

/-- A token of the prompt, with all that a usage can say of it. -/
structure InputToken where
  cached : Bool
  created : Option CacheTTL
  image : Bool
  audio : Bool

/-- How many of its properties have a count. -/
def InputToken.kinds (t : InputToken) : ℕ :=
  t.cached.toNat + t.created.isSome.toNat + t.image.toNat + t.audio.toNat

/-- The usage counts these tokens. -/
structure Reports (tokens : List InputToken) (usage : Usage) : Prop where
  prompt : usage.promptTokens = tokens.length
  cached : usage.promptTokensDetails.cachedTokens = tokens.countP (·.cached)
  created : usage.promptTokensDetails.cacheCreationTokensTotal = tokens.countP (·.created.isSome)
  created5m : usage.claudeCacheCreation5mTokens = tokens.countP (·.created = some .fiveMinutes)
  created1h : usage.claudeCacheCreation1hTokens = tokens.countP (·.created = some .oneHour)
  image : usage.promptTokensDetails.imageTokens = tokens.countP (·.image)
  audio : usage.promptTokensDetails.audioTokens = tokens.countP (·.audio)
  cachedImage : ∀ details n, usage.promptTokensDetails.cachedTokensDetails = some details →
    details.imageTokens = some n → n = tokens.countP fun t => t.cached && t.image

/-- The tokens that a category counts, when the cached images are split off and when they are not. -/
def InputCategory.covers (anthropic split : Bool) : InputCategory → InputToken → Bool
  | .cr, t => t.cached && !(split && t.image)
  | .cc, t => if anthropic then t.created = some .fiveMinutes else t.created.isSome
  | .cc1h, t => anthropic && t.created = some .oneHour
  | .img, t => t.image && !(split && t.cached)
  | .imgCR, t => split && t.cached && t.image
  | .ai, t => t.audio

/-- Tokens of one kind, and cached images that are split off, are in one category. -/
theorem InputCategory.covers_unique {anthropic split : Bool} {t : InputToken}
    (ht : t.kinds ≤ 1 ∨ split = true ∧ t.cached = true ∧ t.image = true ∧ t.kinds = 2) {k k' : InputCategory}
    (hk : k.covers anthropic split t = true) (hk' : k'.covers anthropic split t = true) : k = k' := by
  have hcount : t.cached.toNat + t.created.isSome.toNat + t.image.toNat + t.audio.toNat ≤ 1 ∨
      split = true ∧ t.cached = true ∧ t.image = true ∧ t.created.isSome = false ∧ t.audio = false := by
    refine ht.imp id fun ⟨hsplit, hcached, himage, hkinds⟩ => ⟨hsplit, hcached, himage, ?_⟩
    rw [InputToken.kinds, hcached, himage] at hkinds
    generalize t.created.isSome = created at hkinds
    generalize t.audio = audio at hkinds
    revert hkinds
    cases created <;> cases audio <;> decide
  have hsome : ∀ ttl, t.created = some ttl → t.created.isSome = true := fun ttl h => by rw [h]; rfl
  have hpos : ∀ b : Bool, b = true → b.toNat = 1 := fun b hb => by rw [hb]; rfl
  cases k <;> cases k' <;> first
    | rfl
    | (exfalso
       simp only [InputCategory.covers, Bool.and_eq_true, Bool.not_eq_true', Bool.and_eq_false_iff,
         decide_eq_true_eq] at hk hk'
       grind)

theorem countP_and_add (tokens : List InputToken) (p q : InputToken → Bool) :
    tokens.countP (fun t => p t && q t) + tokens.countP (fun t => p t && !q t) = tokens.countP p := by
  induction tokens with
  | nil => rfl
  | cons t tokens ih => cases hp : p t <;> cases hq : q t <;> simp [hp, hq] <;> omega

variable {tokens : List InputToken}

theorem cachedImageSplit_reports {usage : Usage} {usedVars : String → Bool} {isClaude : Bool} {n : ℤ}
    (hreports : Reports tokens usage) (h : cachedImageSplit usage isClaude usedVars = some n) :
    n = tokens.countP fun t => t.cached && t.image := by
  unfold cachedImageSplit at h
  split at h
  · unfold validBreakdown at h
    split at h
    · cases h
    · next details hdetails =>
      split at h
      · cases h
      · next m hm =>
        dsimp only at h
        split at h
        · cases h
          exact hreports.cachedImage details n hdetails hm
        · cases h
  · cases h

theorem amount_eq_countP {usage : Usage} (h : usage.Counted) (usedVars : String → Bool)
    (hreports : Reports tokens usage) (k : InputCategory) : k.amount (buildTieredTokenParams usage false usedVars) =
      tokens.countP (k.covers (usage.usageSemantic = "anthropic") (cachedImageSplit usage false usedVars).isSome) := by
  obtain ⟨hcr, hcc, hcc1h, himg, himgCR, hai, -, -⟩ := categories_eq usedVars h false
  have himages : tokens.countP (fun t => t.image && t.cached) = tokens.countP fun t => t.cached && t.image :=
    List.countP_congr fun t _ => by rw [Bool.and_comm]
  have hcachedSplit := countP_and_add tokens (·.cached) (·.image)
  have himageSplit := countP_and_add tokens (·.image) (·.cached)
  show _ = ((tokens.countP fun t =>
    k.covers (usage.usageSemantic = "anthropic") (cachedImageSplit usage false usedVars).isSome t : ℕ) : ℤ)
  cases k with
  | cr =>
    rw [InputCategory.amount, hcr, hreports.cached]
    cases hsplit : cachedImageSplit usage false usedVars with
    | none => simp [InputCategory.covers]
    | some n =>
      rw [cachedImageSplit_reports hreports hsplit]
      simp only [InputCategory.covers, Option.getD_some, Option.isSome_some, Bool.true_and]
      omega
  | cc =>
    rw [InputCategory.amount, hcc, hreports.created5m, hreports.created]
    by_cases hsemantic : usage.usageSemantic = "anthropic" <;> simp [hsemantic, InputCategory.covers]
  | cc1h =>
    rw [InputCategory.amount, hcc1h, hreports.created1h]
    by_cases hsemantic : usage.usageSemantic = "anthropic" <;> simp [hsemantic, InputCategory.covers]
  | img =>
    rw [InputCategory.amount, himg, hreports.image]
    cases hsplit : cachedImageSplit usage false usedVars with
    | none => simp [InputCategory.covers]
    | some n =>
      rw [cachedImageSplit_reports hreports hsplit]
      simp only [InputCategory.covers, Option.getD_some, Option.isSome_some, Bool.true_and]
      omega
  | imgCR =>
    rw [InputCategory.amount, himgCR]
    cases hsplit : cachedImageSplit usage false usedVars with
    | none => simp [InputCategory.covers]
    | some n =>
      rw [cachedImageSplit_reports hreports hsplit]
      simp [InputCategory.covers]
  | ai =>
    rw [InputCategory.amount, hai, hreports.audio]
    rfl

/-- A usage without output and without counts of its own for the two cache lives. -/
def promptUsage (prompt : ℤ) (details : InputTokenDetails) : Usage where
  promptTokens := prompt
  completionTokens := 0
  usageSemantic := ""
  usageSource := ""
  promptTokensDetails := details
  completionTokenDetails := ⟨0, 0⟩
  claudeCacheCreation5mTokens := 0
  claudeCacheCreation1hTokens := 0

/-- Four tokens, of which two are cached and two are images. -/
def imageUsage : Usage :=
  promptUsage 4 { cachedTokens := 2, cachedTokensDetails := some ⟨none, some 1, none⟩, cachedCreationTokens := 0,
                  cacheWriteTokens := 0, audioTokens := 0, imageTokens := 2 }

def imageTokens : List InputToken :=
  [⟨true, none, true, false⟩, ⟨true, none, false, false⟩, ⟨false, none, true, false⟩, ⟨false, none, false, false⟩]

theorem imageUsage_counted : imageUsage.Counted := by constructor <;> decide

theorem imageUsage_reports : Reports imageTokens imageUsage := by
  constructor
  case cachedImage =>
    intro details n hdetails hn
    cases hdetails
    cases hn
    rfl
  all_goals rfl

end Vancine.TextQuota
