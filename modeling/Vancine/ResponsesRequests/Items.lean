import Vancine.ResponsesRequests.ToChat

/-!
# What becomes of the items

What each item of a Responses input says, what a chat message says of them, and when every item is told exactly once.
-/

namespace Vancine.ResponsesRequests

open Lib

/-! ## What an item says -/

/-- What an item says: a text in a role, a call, an output of a function or of a custom tool, or nothing that a chat
message can say. -/
inductive Source
  | message (role text : String)
  | call (id name arguments : String)
  | output (callID text : String) (custom : Bool)
  | other

section Sources

variable (w : Writing)

/-- The text of a content that is a string or text parts. -/
def contentText : Json → Option String
  | .string s => some s
  | .array parts => (parts.mapM fun part => (chatPart w part).2).map String.join
  | _ => none

def messageRole (item : Json.Fields) : String := if itemRole w item = "" then "user" else itemRole w item

/-- The items that are read here, by their kinds. -/
def itemSource (item : Json.Fields) : Option Source :=
  let type := itemType w item
  let name := trimSpace (interface2String w (item.lookup "name"))
  let callID := trimSpace (interface2String w (item.lookup "call_id"))
  let output := responsesArgumentsString w (item.lookup "output")
  if type = "function_call" then
    if name = "" then none
    else some (.call (responsesCallID w item) name (responsesArgumentsString w (item.lookup "arguments")))
  else if type = "custom_tool_call" then
    some (.call (responsesCallID w item) name (responsesArgumentsString w (item.lookup "input")))
  else if type = "function_call_output" then some (.output callID output false)
  else
    match item.lookup "content" with
    | none | some .null =>
      if itemRole w item ≠ "" ∨ type = "" then none
      else if type = "custom_tool_call_output" then some (.output callID output true)
      else some .other
    | some content =>
      if type = "custom_tool_call_output" then none
      else (contentText w content).map fun text => .message (messageRole w item) text

end Sources

/-! ## What a message says -/

def Source.ofToolCall (call : ToolCall) : Source := .call call.id call.name call.arguments

/-- A message says these, in order. -/
inductive Tells : Message → List Source → Prop
  | text (role text : String) (toolCalls : List ToolCall) (h : toolCalls ≠ [] → role = "assistant") :
    Tells { role, content := some (.string text), toolCalls } (.message role text :: toolCalls.map Source.ofToolCall)
  | calls (toolCalls : List ToolCall) (h : toolCalls ≠ []) :
    Tells { role := "assistant", toolCalls } (toolCalls.map Source.ofToolCall)
  | output (callID text : String) (custom : Bool) :
    Tells { role := "tool", content := some (.string text), toolCallId := callID } [.output callID text custom]

/-- The messages say exactly these, each once and in order, and no message says anything else. -/
def TellAll (messages : List Message) (sources : List Source) : Prop :=
  ∃ groups : List (List Source), List.Forall₂ Tells messages groups ∧ groups.flatten = sources

/-- What a chat message can say. -/
def Source.Told : Source → Prop
  | .other => False
  | .message _ _ | .call _ _ _ | .output _ _ _ => True

instance : DecidablePred Source.Told
  | .other => .isFalse id
  | .message _ _ | .call _ _ _ | .output _ _ _ => .isTrue trivial

/-- What is neither an output of a custom tool nor an item of another kind. -/
def Source.Known : Source → Prop
  | .output _ _ true | .other => False
  | .message _ _ | .call _ _ _ | .output _ _ false => True

/-! ## Counting -/

/-- Everything but a call. -/
def Source.isItem : Source → Bool
  | .call _ _ _ => false
  | .message _ _ | .output _ _ _ | .other => true

/-- What stands under the role of a tool. -/
def Source.isTool : Source → Bool
  | .message role _ => role = "tool"
  | .output _ _ _ => true
  | .call _ _ _ | .other => false

theorem countP_ofToolCall {p : Source → Bool} (hp : ∀ id name arguments, p (.call id name arguments) = false)
    (calls : List ToolCall) : (calls.map Source.ofToolCall).countP p = 0 := by
  rw [List.countP_eq_zero]
  intro s hs
  obtain ⟨call, -, rfl⟩ := List.mem_map.mp hs
  rw [Source.ofToolCall, hp]
  exact Bool.false_ne_true

variable {m : Message} {messages : List Message} {sources : List Source}

variable {group : List Source}

theorem Tells.countP_isItem (h : Tells m group) : group.countP Source.isItem = if m.content.isSome then 1 else 0 := by
  cases h with
  | text role text toolCalls h =>
    rw [List.countP_cons_of_pos rfl, countP_ofToolCall fun _ _ _ => rfl]
    rfl
  | calls toolCalls h => exact countP_ofToolCall (fun _ _ _ => rfl) toolCalls
  | output callID text custom => rfl

theorem Tells.countP_isTool (h : Tells m group) : group.countP Source.isTool = if m.role = "tool" then 1 else 0 := by
  cases h with
  | text role text toolCalls h =>
    rw [List.countP_cons, countP_ofToolCall fun _ _ _ => rfl]
    by_cases hrole : role = "tool" <;> simp [Source.isTool, hrole]
  | calls toolCalls h =>
    rw [countP_ofToolCall fun _ _ _ => rfl]
    rfl
  | output callID text custom => rfl

theorem TellAll.countP (h : TellAll messages sources) :
    sources.countP Source.isItem = messages.countP (·.content.isSome) ∧
      sources.countP Source.isTool = messages.countP (·.role = "tool") := by
  obtain ⟨groups, hall, rfl⟩ := h
  induction hall with
  | nil => exact ⟨rfl, rfl⟩
  | @cons m group messages groups hm _ ih =>
    rw [List.flatten_cons, List.countP_append, List.countP_append, hm.countP_isItem, hm.countP_isTool, ih.1, ih.2,
      List.countP_cons, List.countP_cons]
    simp [Nat.add_comm]

/-! ## One item more -/

theorem tellAll_nil : TellAll [] [] := ⟨[], .nil, rfl⟩

theorem TellAll.concat {sources group : List Source} (h : TellAll messages sources) (hm : Tells m group) :
    TellAll (messages ++ [m]) (sources ++ group) := by
  obtain ⟨groups, hall, rfl⟩ := h
  exact ⟨groups ++ [group], List.rel_append hall (.cons hm .nil), by simp⟩

theorem TellAll.of_concat (h : TellAll (messages ++ [m]) sources) :
    ∃ before group, TellAll messages before ∧ Tells m group ∧ sources = before ++ group := by
  obtain ⟨groups, hall, rfl⟩ := h
  have hreverse := List.forall₂_reverse_iff.mpr hall
  rw [List.reverse_concat] at hreverse
  cases hgroups : groups.reverse with
  | nil =>
    rw [hgroups] at hreverse
    cases hreverse
  | cons group rest =>
    rw [hgroups] at hreverse
    cases hreverse with
    | cons hm hrest =>
      have hsplit : groups = rest.reverse ++ [group] := by
        rw [← List.reverse_reverse groups, hgroups, List.reverse_cons]
      refine ⟨rest.reverse.flatten, group, ⟨rest.reverse, ?_, rfl⟩, hm, by rw [hsplit]; simp⟩
      exact List.forall₂_reverse_iff.mp (by rwa [List.reverse_reverse])

/-- A call on the assistant message it follows, or on one of its own. -/
theorem Tells.addCall (h : Tells m group) (hrole : m.role = "assistant") (call : ToolCall) :
    Tells { m with toolCalls := m.toolCalls ++ [call] } (group ++ [.ofToolCall call]) := by
  cases h with
  | text role text toolCalls _ =>
    have := Tells.text role text (toolCalls ++ [call]) fun _ => hrole
    simpa using this
  | calls toolCalls _ =>
    have := Tells.calls (toolCalls ++ [call]) (List.concat_ne_nil call toolCalls)
    simpa using this
  | output => exact absurd hrole (by simp)

theorem TellAll.appendToolCall (h : TellAll messages sources) (call : ToolCall) :
    TellAll (appendToolCallToLastAssistant messages call) (sources ++ [.ofToolCall call]) := by
  have hown : Tells { role := "assistant", toolCalls := [call] } [.ofToolCall call] := .calls [call] (by simp)
  rcases List.eq_nil_or_concat messages with rfl | ⟨init, last, rfl⟩
  · exact h.concat hown
  · rw [List.concat_eq_append] at h ⊢
    unfold appendToolCallToLastAssistant
    rw [List.getLast?_concat]
    dsimp only
    by_cases hrole : last.role = "assistant"
    · rw [if_pos hrole, List.dropLast_concat]
      obtain ⟨before, group, hinit, hlast, rfl⟩ := h.of_concat
      rw [List.append_assoc]
      exact hinit.concat (hlast.addCall hrole call)
    · rw [if_neg hrole]
      exact h.concat hown

theorem countP_appendToolCall {p : Message → Bool} (hp : ∀ (m : Message) calls, p { m with toolCalls := calls } = p m)
    {call : ToolCall} (hown : p { role := "assistant", toolCalls := [call] } = false) (messages : List Message) :
    (appendToolCallToLastAssistant messages call).countP p = messages.countP p := by
  rcases List.eq_nil_or_concat messages with rfl | ⟨init, last, rfl⟩
  · exact List.countP_singleton.trans (if_neg (by simp [hown]))
  · rw [List.concat_eq_append]
    unfold appendToolCallToLastAssistant
    rw [List.getLast?_concat]
    dsimp only
    split
    · rw [List.dropLast_concat, List.countP_append, List.countP_append, List.countP_singleton, List.countP_singleton,
        hp]
    · rw [List.countP_append, List.countP_singleton, if_neg (by simp [hown])]
      rfl

/-- An output of a custom tool. -/
def Source.isCustom : Source → Bool
  | .output _ _ custom => custom
  | .message _ _ | .call _ _ _ | .other => false

theorem forall₂_of_mapM {α β : Type} {f : α → Option β} {l : List α} {l' : List β} (h : l.mapM f = some l') :
    List.Forall₂ (fun a b => f a = some b) l l' := by
  induction l generalizing l' with
  | nil =>
    cases h
    exact .nil
  | cons a l ih =>
    rw [List.mapM_cons] at h
    obtain ⟨b, hb, h⟩ := Option.bind_eq_some_iff.mp h
    obtain ⟨rest, hrest, h⟩ := Option.bind_eq_some_iff.mp h
    cases h
    exact .cons hb (ih hrest)

section Items

variable {w : Writing}

theorem textOf_parts {parts : List Json} {text : String}
    (h : (parts.mapM fun part => (chatPart w part).2).map String.join = some text) :
    responsesContentPartsToChatContent w parts = .string text := by
  obtain ⟨texts, htexts, rfl⟩ := Option.map_eq_some_iff.mp h
  have hall : List.Forall₂ (fun part t => (chatPart w part).2 = some t) parts texts :=
    forall₂_of_mapM htexts
  have hsome : ((parts.map (chatPart w)).all fun p => p.2.isSome) = true := by
    rw [List.all_map]
    clear htexts h
    induction hall with
    | nil => rfl
    | cons hpart _ ih => simp [hpart, ih]
  have hjoin : (parts.map (chatPart w)).filterMap Prod.snd = texts := by
    clear htexts h hsome
    induction hall with
    | nil => rfl
    | cons hpart _ ih => rw [List.map_cons, List.filterMap_cons, hpart, ih]
  unfold responsesContentPartsToChatContent
  dsimp only
  rw [if_pos hsome, hjoin]

theorem textOf_content {content : Json} {text : String} (h : contentText w content = some text) :
    responsesInputContentToChatContent w (some content) = .string text := by
  cases content with
  | string s => cases h; rfl
  | array parts => exact textOf_parts h
  | null | bool | number | object => cases h

theorem item_told {item : Json.Fields} {s : Source} (hs : itemSource w item = some s) (messages : List Message) :
    ∃ messages', responsesInputItemToChatMessages w item messages = .ok messages' ∧
      messages'.countP (·.content.isSome) = messages.countP (·.content.isSome) + (if s.isItem then 1 else 0) ∧
      messages'.countP (·.role = "tool") =
        messages.countP (·.role = "tool") + (if s.isTool && !s.isCustom then 1 else 0) ∧
      (s.Known → ∀ sources, TellAll messages sources → TellAll messages' (sources ++ [s])) := by
  unfold itemSource at hs
  unfold responsesInputItemToChatMessages
  dsimp only at hs ⊢
  by_cases hcall : itemType w item = "function_call"
  · rw [if_pos hcall] at hs ⊢
    unfold responsesFunctionCallItemToChatToolCall
    dsimp only
    split at hs
    · cases hs
    next hname =>
      cases hs
      rw [if_neg hname]
      refine ⟨_, rfl, countP_appendToolCall (fun _ _ => rfl) rfl messages,
        countP_appendToolCall (fun _ _ => rfl) rfl messages, fun _ sources h => h.appendToolCall _⟩
  rw [if_neg hcall] at hs ⊢
  by_cases hcustom : itemType w item = "custom_tool_call"
  · rw [if_pos hcustom] at hs ⊢
    cases hs
    exact ⟨_, rfl, countP_appendToolCall (fun _ _ => rfl) rfl messages,
      countP_appendToolCall (fun _ _ => rfl) rfl messages,
      fun _ sources h => h.appendToolCall (responsesCustomToolCallItemToChatToolCall w item)⟩
  rw [if_neg hcustom] at hs ⊢
  by_cases houtput : itemType w item = "function_call_output"
  · rw [if_pos houtput] at hs ⊢
    cases hs
    refine ⟨_, rfl, ?_, ?_, fun _ sources h => h.concat (.output _ _ false)⟩ <;> rw [List.countP_append] <;> rfl
  rw [if_neg houtput] at hs ⊢
  refine ⟨_, rfl, ?_⟩
  -- a message in all other cases
  have hadd (role text : String) :
      (messages ++ [({ role, content := some (.string text) } : Message)]).countP (·.content.isSome) =
          messages.countP (·.content.isSome) + 1 ∧
        (messages ++ [({ role, content := some (.string text) } : Message)]).countP (·.role = "tool") =
          messages.countP (·.role = "tool") + if role = "tool" then 1 else 0 := by
    rw [List.countP_append, List.countP_append]
    exact ⟨rfl, by by_cases hrole : role = "tool" <;> simp [hrole]⟩
  by_cases hnull : item.lookup "content" = none ∨ item.lookup "content" = some .null
  · -- without a role and a content it is an empty message of the user
    have hs' : (if itemRole w item ≠ "" ∨ itemType w item = "" then none
        else if itemType w item = "custom_tool_call_output" then
          some (.output (trimSpace (interface2String w (item.lookup "call_id")))
            (responsesArgumentsString w (item.lookup "output")) true)
        else some .other) = some s := by
      rcases hnull with h | h <;> rw [h] at hs <;> exact hs
    have hcontent : responsesInputContentToChatContent w (item.lookup "content") = .string "" := by
      rcases hnull with h | h <;> rw [h] <;> rfl
    split at hs'
    · cases hs'
    next hrole =>
      rw [hcontent, if_pos (not_not.mp (not_or.mp hrole).1)]
      obtain ⟨hitem, htool⟩ := hadd "user" ""
      split at hs' <;> cases hs' <;> exact ⟨hitem, htool, fun hknown => hknown.elim⟩
  · split at hs
    next heq => exact absurd (.inl heq) hnull
    next heq => exact absurd (.inr heq) hnull
    next content _ heq =>
      split at hs
      · cases hs
      next hno =>
        obtain ⟨text, htext, rfl⟩ := Option.map_eq_some_iff.mp hs
        rw [heq, textOf_content htext]
        obtain ⟨hcontent, hrole⟩ := hadd (messageRole w item) text
        refine ⟨hcontent, hrole.trans ?_, fun _ sources h => h.concat (.text _ text [] fun hne => absurd rfl hne)⟩
        by_cases htool : messageRole w item = "tool" <;> simp [Source.isTool, Source.isCustom, htool]

theorem items_told {items : List Json.Fields} {sources : List Source}
    (hsources : List.Forall₂ (fun item s => itemSource w item = some s) items sources) (messages : List Message) :
    ∃ messages', itemMessages w items messages = .ok messages' ∧
      messages'.countP (·.content.isSome) = messages.countP (·.content.isSome) + sources.countP Source.isItem ∧
      messages'.countP (·.role = "tool") =
        messages.countP (·.role = "tool") + sources.countP (fun s => s.isTool && !s.isCustom) ∧
      ((∀ s ∈ sources, s.Known) → ∀ before, TellAll messages before → TellAll messages' (before ++ sources)) := by
  induction hsources generalizing messages with
  | nil => exact ⟨messages, rfl, rfl, rfl, fun _ before h => by rwa [List.append_nil]⟩
  | @cons item s items sources hs _ ih =>
    obtain ⟨next, hnext, hitem, htool, htell⟩ := item_told hs messages
    obtain ⟨last, hlast, hitem', htool', htell'⟩ := ih next
    refine ⟨last, ?_, ?_, ?_, fun hknown before hbefore => ?_⟩
    · unfold itemMessages at hlast ⊢
      rw [List.foldlM_cons, hnext]
      exact hlast
    · rw [hitem', hitem, List.countP_cons, Nat.add_assoc, Nat.add_comm (sources.countP Source.isItem)]
    · rw [htool', htool, List.countP_cons, Nat.add_assoc,
        Nat.add_comm (sources.countP fun s => s.isTool && !s.isCustom)]
    · have := htell' (fun x hx => hknown x (List.mem_cons_of_mem s hx)) _
        (htell (hknown s List.mem_cons_self) before hbefore)
      rwa [List.append_assoc] at this

/-! ## The messages of the instructions -/

theorem append_appendToolCall {pre : List Message} (hpre : ∀ m ∈ pre, m.role ≠ "assistant") (messages : List Message)
    (call : ToolCall) :
    appendToolCallToLastAssistant (pre ++ messages) call = pre ++ appendToolCallToLastAssistant messages call := by
  unfold appendToolCallToLastAssistant
  rcases List.eq_nil_or_concat messages with rfl | ⟨init, last, rfl⟩
  · rw [List.append_nil]
    cases hlast : pre.getLast? with
    | none =>
      rw [List.getLast?_eq_none_iff.mp hlast]
      rfl
    | some last => exact if_neg (hpre last (List.mem_of_getLast? hlast))
  · rw [List.concat_eq_append, ← List.append_assoc, List.getLast?_concat, List.getLast?_concat]
    dsimp only
    split
    · rw [List.dropLast_concat, List.dropLast_concat, List.append_assoc]
    · rw [List.append_assoc, List.append_assoc, List.append_assoc]

theorem append_itemMessages {pre : List Message} (hpre : ∀ m ∈ pre, m.role ≠ "assistant") (items : List Json.Fields)
    (messages : List Message) :
    itemMessages w items (pre ++ messages) = (itemMessages w items messages).map (pre ++ ·) := by
  have hitem (item : Json.Fields) (messages : List Message) :
      responsesInputItemToChatMessages w item (pre ++ messages) =
      (responsesInputItemToChatMessages w item messages).map (pre ++ ·) := by
    unfold responsesInputItemToChatMessages
    dsimp only
    split
    · cases responsesFunctionCallItemToChatToolCall w item with
      | error e => rfl
      | ok call => exact congrArg Except.ok (append_appendToolCall hpre messages call)
    split
    · exact congrArg Except.ok (append_appendToolCall hpre messages _)
    split
    · exact congrArg Except.ok (List.append_assoc _ _ _)
    · exact congrArg Except.ok (List.append_assoc _ _ _)
  unfold itemMessages
  induction items generalizing messages with
  | nil => rfl
  | cons item items ih =>
    rw [List.foldlM_cons, List.foldlM_cons, hitem]
    cases responsesInputItemToChatMessages w item messages with
    | error e => rfl
    | ok next => exact ih next

theorem role_instructionMessages (instructions : Option Json) :
    ∀ m ∈ instructionMessages w instructions, m.role = "system" := by
  have hsystem (text : String) : ∀ m ∈ (if trimSpace text ≠ "" then
      [({ role := "system", content := some (.string text) } : Message)] else []), m.role = "system" := by
    intro m hm
    split at hm
    · rw [List.mem_singleton.mp hm]
    · cases hm
  intro m hm
  unfold instructionMessages at hm
  split at hm
  · cases hm
  · cases hm
  · exact hsystem _ m hm

/-- The messages of an array of items stand behind that of the instructions. -/
theorem responsesRequestMessagesToChat_items (instructions : Option Json) (items : List Json.Fields) :
    responsesRequestMessagesToChat w ⟨instructions, some (.array (items.map .object))⟩ =
      (itemMessages w items []).map (instructionMessages w instructions ++ ·) := by
  have hfields : (items.map Json.object).mapM fieldsOf = Except.ok items := by
    induction items with
    | nil => rfl
    | cons item items ih =>
      rw [List.map_cons, List.mapM_cons, ih]
      rfl
  have hpre : ∀ m ∈ instructionMessages w instructions, m.role ≠ "assistant" := fun m hm => by
    rw [role_instructionMessages instructions m hm]
    decide
  rw [← append_itemMessages hpre items [], List.append_nil]
  show ((items.map Json.object).mapM fieldsOf >>= fun items => itemMessages w items _) = _
  rw [hfields]
  rfl

/-! ## Every item once -/

theorem countP_filter_told {p : Source → Bool} (hp : p .other = false) (sources : List Source) :
    (sources.filter (·.Told)).countP p = sources.countP p := by
  rw [List.countP_filter]
  refine List.countP_congr fun s _ => ?_
  cases s with
  | other => simp [hp]
  | message | call | output =>
    show (p _ && true) = true ↔ _
    rw [Bool.and_true]

/-- Where fewer are counted of what implies more, both are the same. -/
theorem imp_of_countP_eq {α : Type} {p q : α → Bool} {l : List α} (hqp : ∀ a ∈ l, q a = true → p a = true)
    (h : l.countP p = l.countP q) : ∀ a ∈ l, p a = true → q a = true := by
  induction l with
  | nil => exact fun a ha => absurd ha List.not_mem_nil
  | cons b l ih =>
    obtain ⟨hb, hl⟩ := List.forall_mem_cons.mp hqp
    have hle : l.countP q ≤ l.countP p := List.countP_mono_left hl
    rw [List.countP_cons, List.countP_cons] at h
    refine List.forall_mem_cons.mpr ⟨fun hp => ?_, ?_⟩
    · by_contra hq
      rw [if_pos hp, if_neg hq] at h
      omega
    · refine ih hl ?_
      by_cases hq : q b = true
      · rw [if_pos (hb hq), if_pos hq] at h
        omega
      · rw [if_neg hq] at h
        split at h <;> omega

/-- For inputs that hold no other values than texts. -/
def textWriting : Writing := ⟨fun _ => "null", fun _ => "0", fun _ => "0"⟩

def greetingItem : Json.Fields := [("role", .string "user"), ("content", .string "hi")]

def functionOutputItem : Json.Fields :=
  [("type", .string "function_call_output"), ("call_id", .string "call_1"), ("output", .string "done")]

def customOutputItem : Json.Fields :=
  [("type", .string "custom_tool_call_output"), ("call_id", .string "call_1"), ("output", .string "done")]

theorem greetingItem_source : itemSource textWriting greetingItem = some (.message "user" "hi") := by
  have htype : itemType textWriting greetingItem = "" := trimSpace_empty
  have hrole : itemRole textWriting greetingItem = "user" := trimSpace_of_all (by decide)
  unfold itemSource
  rw [htype, messageRole, hrole]
  rfl

theorem functionOutputItem_source :
    itemSource textWriting functionOutputItem = some (.output "call_1" "done" false) := by
  have htype : itemType textWriting functionOutputItem = "function_call_output" := trimSpace_of_all (by decide)
  have hid : trimSpace (interface2String textWriting (functionOutputItem.lookup "call_id")) = "call_1" :=
    trimSpace_of_all (by decide)
  unfold itemSource
  rw [htype, hid]
  rfl

theorem customOutputItem_source : itemSource textWriting customOutputItem = some (.output "call_1" "done" true) := by
  have htype : itemType textWriting customOutputItem = "custom_tool_call_output" := trimSpace_of_all (by decide)
  have hrole : itemRole textWriting customOutputItem = "" := trimSpace_empty
  have hid : trimSpace (interface2String textWriting (customOutputItem.lookup "call_id")) = "call_1" :=
    trimSpace_of_all (by decide)
  unfold itemSource
  rw [htype, hrole, hid]
  rfl

end Items

end Vancine.ResponsesRequests
