import Mathlib

/-!
# Names of models

Some names stand for a family and are priced under a wildcard. The completion ratio of some families is fixed.
-/

namespace Vancine.ModelPricing

def hasPrefix (s pre : String) : Bool := pre.toList.isPrefixOf s.toList

def hasSuffix (s post : String) : Bool := post.toList.isSuffixOf s.toList

def containsText (s part : String) : Bool := decide (part.toList <:+: s.toList)

def handleThinkingBudgetModel (name pre wildcard : String) : String :=
  if hasPrefix name pre && containsText name "-thinking-" then wildcard else name

def geminiThinkingName (name : String) : String :=
  if hasPrefix name "gemini-2.5-flash-lite" then
    handleThinkingBudgetModel name "gemini-2.5-flash-lite" "gemini-2.5-flash-lite-thinking-*"
  else if hasPrefix name "gemini-2.5-flash" then
    handleThinkingBudgetModel name "gemini-2.5-flash" "gemini-2.5-flash-thinking-*"
  else if hasPrefix name "gemini-2.5-pro" then
    handleThinkingBudgetModel name "gemini-2.5-pro" "gemini-2.5-pro-thinking-*"
  else name

def gizmoName (name : String) : String := if hasPrefix name "gpt-4-gizmo" then "gpt-4-gizmo-*" else name

def gizmo4oName (name : String) : String := if hasPrefix name "gpt-4o-gizmo" then "gpt-4o-gizmo-*" else name

def formatMatchingModelName (name : String) : String := gizmo4oName (gizmoName (geminiThinkingName name))

/-- The names that stand for a family. -/
def wildcardNames : List String :=
  ["gemini-2.5-flash-lite-thinking-*", "gemini-2.5-flash-thinking-*", "gemini-2.5-pro-thinking-*", "gpt-4-gizmo-*",
    "gpt-4o-gizmo-*"]

theorem handleThinkingBudgetModel_cases (name pre : String) {wildcard : String} (h : wildcard ∈ wildcardNames) :
    handleThinkingBudgetModel name pre wildcard = name ∨
      handleThinkingBudgetModel name pre wildcard ∈ wildcardNames := by
  unfold handleThinkingBudgetModel
  split
  · exact .inr h
  · exact .inl rfl

variable (name : String)

theorem geminiThinkingName_cases : geminiThinkingName name = name ∨ geminiThinkingName name ∈ wildcardNames := by
  unfold geminiThinkingName
  split
  · exact handleThinkingBudgetModel_cases name _ (by decide)
  · split
    · exact handleThinkingBudgetModel_cases name _ (by decide)
    · split
      · exact handleThinkingBudgetModel_cases name _ (by decide)
      · exact .inl rfl

theorem geminiThinkingName_wildcard : ∀ name ∈ wildcardNames, geminiThinkingName name = name := by
  simp only [wildcardNames, List.forall_mem_cons, geminiThinkingName, handleThinkingBudgetModel, hasPrefix,
    containsText, String.reduceToList]
  decide +kernel

theorem formatMatchingModelName_wildcard : ∀ name ∈ wildcardNames, formatMatchingModelName name = name := by
  have hgizmo : ∀ name ∈ wildcardNames, gizmo4oName (gizmoName name) = name := by
    simp only [wildcardNames, List.forall_mem_cons, gizmo4oName, gizmoName, hasPrefix, String.reduceToList]
    decide +kernel
  intro name h
  rw [formatMatchingModelName, geminiThinkingName_wildcard name h, hgizmo name h]

theorem formatMatchingModelName_cases :
    formatMatchingModelName name = name ∨ formatMatchingModelName name ∈ wildcardNames := by
  unfold formatMatchingModelName gizmo4oName
  split
  · exact .inr (by decide)
  · unfold gizmoName
    split
    · exact .inr (by decide)
    · exact geminiThinkingName_cases name

@[simp] theorem formatMatchingModelName_idem :
    formatMatchingModelName (formatMatchingModelName name) = formatMatchingModelName name := by
  rcases formatMatchingModelName_cases name with h | h
  · rw [h, h]
  · exact formatMatchingModelName_wildcard _ h

/-! ## Completion ratios -/

structure CompletionRatioInfo where
  ratio : ℚ
  locked : Bool := false

def gptCompletionRatio (name : String) : ℚ × Bool :=
  if hasPrefix name "gpt-4o" then
    if name = "gpt-4o-2024-05-13" then (3, true)
    else if hasPrefix name "gpt-4o-mini-tts" then (20, false)
    else (4, false)
  else if hasPrefix name "gpt-5" then
    if !containsText name "." then (8, true)
    else if hasPrefix name "gpt-5.4" then
      if hasPrefix name "gpt-5.4-nano" then (6.25, true) else (6, true)
    else (6, false)
  else if hasPrefix name "gpt-4.5-preview" then (2, true)
  else if hasPrefix name "gpt-4-turbo" || hasSuffix name "gpt-4-1106" || hasSuffix name "gpt-4-1105" then (3, true)
  else (2, false)

def geminiCompletionRatio (name : String) : ℚ × Bool :=
  if hasPrefix name "gemini-1.5" then (4, true)
  else if hasPrefix name "gemini-2.0" then (4, true)
  else if hasPrefix name "gemini-2.5-pro" then (8, false)
  else if hasPrefix name "gemini-2.5-flash" then
    if hasPrefix name "gemini-2.5-flash-preview" then (3.5 / 0.15, false)
    else if hasPrefix name "gemini-2.5-flash-lite" then (4, false)
    else (2.5 / 0.3, false)
  else if hasPrefix name "gemini-robotics-er-1.5" then (2.5 / 0.3, false)
  else if hasPrefix name "gemini-3-pro" then
    if hasPrefix name "gemini-3-pro-image" then (60, false) else (6, false)
  else (4, false)

def commandCompletionRatio (name : String) : ℚ × Bool :=
  if name = "command-r" then (3, true)
  else if name = "command-r-plus" then (5, true)
  else if name = "command-r-08-2024" then (4, true)
  else if name = "command-r-plus-08-2024" then (4, true)
  else (4, false)

/-- `getHardcodedCompletionModelRatio`. No name that starts with `gpt-` reaches the branch of `gpt-3.5`. -/
def getHardcodedCompletionModelRatio (name : String) : ℚ × Bool :=
  if hasSuffix name "-all" || hasSuffix name "-gizmo-*" then (2, false)
  else if hasPrefix name "gpt-" then gptCompletionRatio name
  else if hasPrefix name "o1" || hasPrefix name "o3" then (4, true)
  else if name = "chatgpt-4o-latest" then (3, true)
  else if containsText name "claude-3" then (5, true)
  else if containsText name "claude-sonnet-4" || containsText name "claude-opus-4" || containsText name "claude-haiku-4"
    then (5, true)
  else if hasPrefix name "gpt-3.5" then
    if name = "gpt-3.5-turbo" || hasSuffix name "0125" then (3, true)
    else if hasSuffix name "1106" then (2, true)
    else (4 / 3, true)
  else if hasPrefix name "mistral-" then (3, true)
  else if hasPrefix name "gemini-" then geminiCompletionRatio name
  else if hasPrefix name "command" then commandCompletionRatio name
  else if hasPrefix name "ERNIE-Speed-" || hasPrefix name "ERNIE-Lite-" || hasPrefix name "ERNIE-Character" ||
    hasPrefix name "ERNIE-Functions" then (2, true)
  else if name = "llama2-70b-4096" then (0.8 / 0.64, true)
  else if name = "llama3-8b-8192" then (2, true)
  else if name = "llama3-70b-8192" then (0.79 / 0.59, true)
  else (1, false)

def resolveCompletionRatio (name : String) (configured : Option ℚ) : CompletionRatioInfo :=
  let name := formatMatchingModelName name
  let (hardCodedRatio, locked) := getHardcodedCompletionModelRatio name
  match configured with
  | some ratio =>
    if containsText name "/" then { ratio }
    else if locked then { ratio := hardCodedRatio, locked := true }
    else { ratio }
  | none => { ratio := hardCodedRatio, locked }

theorem resolveCompletionRatio_format (configured : Option ℚ) :
    resolveCompletionRatio (formatMatchingModelName name) configured = resolveCompletionRatio name configured := by
  unfold resolveCompletionRatio
  rw [formatMatchingModelName_idem]

end Vancine.ModelPricing
