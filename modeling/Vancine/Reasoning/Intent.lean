import Vancine.Lib.Lower
import Vancine.Lib.Text

/-!
# Reasoning controls of a request

What a client asks about reasoning, whatever the protocol: whether to reason, how hard, for how many tokens, and whether
to show the thoughts. The requests of two protocols carry it from one conversion to the next, in their own fields and in
a state that is not sent to anyone.

A mode and an effort are texts, as any client may send them.
-/

namespace Vancine.Reasoning

open Lib

inductive Source
  | unset | explicit | native | suffix | pivot

structure Intent where
  mode : String
  effort : String
  budgetTokens : Option ℤ
  includeThoughts : Option Bool
  source : Source
  budgetSource : Source

/-- `Intent{}`. -/
def Intent.zero : Intent := ⟨"", "", none, none, .unset, .unset⟩

def Intent.hasStrength (i : Intent) : Bool := i.mode ≠ "" || i.effort ≠ "" || i.budgetTokens.isSome

def Intent.isEmpty (i : Intent) : Bool := !i.hasStrength && i.includeThoughts.isNone

inductive ReasoningError
  | unsupportedEffort (value : String)
  | unsupportedMode (mode : String)
  | negativeBudget (budget : ℤ)
  /-- zero budget disables thinking -/
  | zeroBudget
  /-- a non-zero budget enables thinking -/
  | nonZeroBudget
  /-- effort none disables thinking -/
  | effortNone
  /-- explicit fields disagree about whether thinking is enabled -/
  | disagree (model : String)
  | efforts (model primary secondary : String)
  | budgets (model : String) (primary secondary : ℤ)
  | invalidConfig

/-! ## Normal intents -/

def efforts : List String := ["none", "minimal", "low", "medium", "high", "xhigh", "max"]

def modes : List String := ["", "enabled", "adaptive", "disabled"]

section

-- the lower-case letters outside ASCII
variable (lowerRune : Char → Char)

def parseEffort (value : String) : Except ReasoningError String :=
  let effort := toLower lowerRune (trimSpace value)
  if effort = "" ∨ effort ∈ efforts then .ok effort else .error (.unsupportedEffort value)

def normalizeBudget (intent : Intent) : Except ReasoningError Intent :=
  match intent.budgetTokens with
  | none => .ok intent
  | some budget =>
    if budget < -1 then .error (.negativeBudget budget)
    else if budget = 0 then
      if intent.mode = "enabled" ∨ intent.mode = "adaptive" ∨ intent.effort ≠ "" ∧ intent.effort ≠ "none" then
        .error .zeroBudget
      else .ok { intent with mode := "disabled", effort := "none" }
    else if intent.mode = "disabled" ∨ intent.effort = "none" then .error .nonZeroBudget
    else if intent.mode = "" then .ok { intent with mode := "enabled" }
    else .ok intent

def normalizeIntent (intent : Intent) : Except ReasoningError Intent := do
  let effort ← parseEffort lowerRune intent.effort
  if intent.mode ∉ modes then .error (.unsupportedMode intent.mode)
  else
    let intent ← normalizeBudget { intent with effort }
    if intent.effort = "none" then
      if intent.mode = "enabled" ∨ intent.mode = "adaptive" then .error .effortNone
      else .ok { intent with mode := "disabled" }
    else .ok intent

def effortFromBudget (budget : ℤ) : String :=
  if budget = 0 then "none"
  else if budget < 0 then "high"
  else if budget ≤ 1024 then "low"
  else if budget ≤ 8192 then "medium"
  else "high"

def effectiveEffort (intent : Intent) : String :=
  match normalizeIntent lowerRune intent with
  | .error _ => ""
  | .ok intent =>
    if intent.mode = "disabled" then "none"
    else if intent.effort ≠ "" then intent.effort
    else match intent.budgetTokens with
      | some budget => effortFromBudget budget
      | none => if intent.mode = "enabled" ∨ intent.mode = "adaptive" then "high" else ""

/-! ## Merging -/

def Intent.isDisabled (i : Intent) : Bool := i.mode = "disabled" || i.effort = "none"

/-- The fields of `primary` that are set, and those of `secondary`. -/
def merged (primary secondary : Intent) : Intent where
  mode := if primary.mode ≠ "" then primary.mode else secondary.mode
  effort := if primary.effort ≠ "" then primary.effort else secondary.effort
  budgetTokens := primary.budgetTokens <|> secondary.budgetTokens
  includeThoughts := primary.includeThoughts <|> secondary.includeThoughts
  source := secondary.source
  budgetSource := if primary.budgetTokens.isSome then primary.budgetSource else secondary.budgetSource

def mergeExplicit (primary secondary : Intent) (model : String) : Except ReasoningError Intent := do
  let primary ← normalizeIntent lowerRune primary
  let secondary ← normalizeIntent lowerRune secondary
  if primary.isEmpty then .ok secondary
  else if secondary.isEmpty then .ok primary
  else if primary.hasStrength && secondary.hasStrength && primary.isDisabled != secondary.isDisabled then
    .error (.disagree model)
  else if primary.effort ≠ "" ∧ secondary.effort ≠ "" ∧ primary.effort ≠ secondary.effort then
    .error (.efforts model primary.effort secondary.effort)
  else
    match primary.budgetTokens, secondary.budgetTokens with
    | some a, some b =>
      if a ≠ b then .error (.budgets model a b) else normalizeIntent lowerRune (merged primary secondary)
    | _, _ => normalizeIntent lowerRune (merged primary secondary)

/-! ## The requests -/

/-- `dto.ReasoningConversionState`, which is not in the JSON of a request. -/
structure ReasoningConversionState where
  mode : String
  effort : String
  budgetTokens : Option ℤ
  includeThoughts : Option Bool

def pivotState (intent : Intent) : ReasoningConversionState :=
  ⟨intent.mode, intent.effort, intent.budgetTokens, intent.includeThoughts⟩

def pivot (state : ReasoningConversionState) : Intent :=
  ⟨state.mode, state.effort, state.budgetTokens, state.includeThoughts, .pivot, .pivot⟩

structure OpenRouterReasoning where
  enabled : Option Bool
  effort : String
  maxTokens : Option ℤ
  exclude : Option Bool

/-- `dto.GeneralOpenAIRequest`; `reasoning` is what its text unmarshals to, when it has one. -/
structure GeneralOpenAIRequest where
  model : String
  reasoningEffort : String
  reasoning : Option (Option OpenRouterReasoning)
  reasoningConversion : Option ReasoningConversionState

/-- `dto.Reasoning`. -/
structure ResponsesReasoning where
  effort : String
  summary : String

structure OpenAIResponsesRequest where
  model : String
  reasoning : Option ResponsesReasoning
  reasoningConversion : Option ReasoningConversionState

/-! ## The chat protocol -/

/-- The fields of the request that OpenRouter has added. -/
def nestedIntent (raw : OpenRouterReasoning) : Except ReasoningError Intent := do
  let nested : Intent :=
    { Intent.zero with budgetTokens := raw.maxTokens, source := .explicit, budgetSource := .explicit }
  let nested := match raw.enabled with
    | none => nested
    | some true => { nested with mode := "enabled" }
    | some false => { nested with mode := "disabled", effort := "none" }
  let nested ←
    if raw.effort = "" then pure nested
    else do
      let effort ← parseEffort lowerRune raw.effort
      pure { nested with
        effort
        mode := if effort = "none" then "disabled" else if nested.mode = "" then "enabled" else nested.mode }
  pure { nested with includeThoughts := raw.exclude.map not }

def fromOpenAIChat (req : GeneralOpenAIRequest) : Except ReasoningError Intent := do
  let intent : Intent := { Intent.zero with source := .explicit }
  let intent ←
    if req.reasoningEffort = "" then pure intent
    else do
      let effort ← parseEffort lowerRune req.reasoningEffort
      pure { intent with effort, mode := if effort = "none" then "disabled" else "enabled" }
  let intent ← match req.reasoning with
    | none => pure intent
    | some none => .error .invalidConfig
    | some (some raw) => do
      let nested ← nestedIntent lowerRune raw
      mergeExplicit lowerRune intent nested req.model
  match req.reasoningConversion with
  | none => normalizeIntent lowerRune intent
  | some state =>
    -- the effort that the pivot stands for is no second opinion
    let intent :=
      if req.reasoningEffort ≠ "" ∧ req.reasoningEffort = effectiveEffort lowerRune (pivot state) then
        { intent with effort := "", mode := "" }
      else intent
    mergeExplicit lowerRune intent (pivot state) req.model

def applyToOpenAIChat (req : GeneralOpenAIRequest) (intent : Intent) : Except ReasoningError GeneralOpenAIRequest := do
  let intent ← normalizeIntent lowerRune intent
  let effort := effectiveEffort lowerRune intent
  let req := if effort ≠ "" then { req with reasoningEffort := effort } else req
  if intent.isEmpty then pure req else pure { req with reasoningConversion := some (pivotState intent) }

/-! ## The Responses protocol -/

def applyToOpenAIResponses (req : OpenAIResponsesRequest) (intent : Intent) :
    Except ReasoningError OpenAIResponsesRequest := do
  let intent ← normalizeIntent lowerRune intent
  let effort := effectiveEffort lowerRune intent
  let summary := if effort = "none" ∨ intent.includeThoughts = some false then "" else "detailed"
  let req := if effort ≠ "" then { req with reasoning := some ⟨effort, summary⟩ } else req
  if intent.isEmpty then pure req else pure { req with reasoningConversion := some (pivotState intent) }

/-- What the request itself says. -/
def responsesIntent (reasoning : Option ResponsesReasoning) : Except ReasoningError Intent :=
  match reasoning with
  | none => pure Intent.zero
  | some reasoning => do
    let intent : Intent := { Intent.zero with source := .explicit }
    let intent ←
      if reasoning.effort = "" then pure intent
      else do
        let effort ← parseEffort lowerRune reasoning.effort
        pure { intent with effort, mode := if effort = "none" then "disabled" else "enabled" }
    pure { intent with includeThoughts := if reasoning.summary ≠ "" then some true else none }

def fromOpenAIResponses (req : OpenAIResponsesRequest) : Except ReasoningError Intent := do
  let intent ← responsesIntent lowerRune req.reasoning
  match req.reasoningConversion with
  | none => normalizeIntent lowerRune intent
  | some state =>
    let effort := (req.reasoning.map ResponsesReasoning.effort).getD ""
    let intent :=
      if effort ≠ "" ∧ effort = effectiveEffort lowerRune (pivot state) then { intent with effort := "", mode := "" }
      else intent
    mergeExplicit lowerRune intent (pivot state) req.model

end

end Vancine.Reasoning
