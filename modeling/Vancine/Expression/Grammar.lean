import Vancine.Expression.Parser

/-!
# The grammar of expressions

`Parses` says which tokens a part of the parser takes for which node, and with which tokens after them. It
is what the parser computes, without its way of counting tokens: a derivation is found from a run of the
parser, and a run from a derivation.

A derivation looks at no more than one token after those it takes. So what follows can be replaced by
anything that does not go on with the expression.
-/

namespace Vancine.Expression

open Pricing (Text)

variable {α : Type}

/-! ## Derivations -/

/-- The parts of the parser. -/
inductive Goal (α : Type)
  | primary
  | expression (minimum : ℕ)
  | operators (minimum : ℕ) (left : ExpressionNode α)

/-- The tokens go on with an operator of the loop. -/
def continues (minimum : ℕ) : List (Lexeme α) → Bool
  | .symbol (.op operator) :: _ => minimum ≤ operator.precedence
  | _ => false

/-- The end of a call, with or without a comma, and what follows. -/
def ClosesCall (tokens rest : List (Lexeme α)) : Prop :=
  tokens = .symbol .rparen :: rest ∨ tokens = .symbol .comma :: .symbol .rparen :: rest

inductive Parses : ℕ → Goal α → List (Lexeme α) → ExpressionNode α → List (Lexeme α) → Prop
  | number {depth : ℕ} {text : Text} {value : α} {integer : Bool} {rest : List (Lexeme α)} :
      Parses depth .primary (.number text value integer :: rest) (.literal (.number value integer)) rest
  | string {depth : ℕ} {text value : Text} {rest : List (Lexeme α)} :
      Parses depth .primary (.string text value :: rest) (.literal (.string value)) rest
  | namedLiteral {depth : ℕ} {text : Text} {value : Literal α} {rest : List (Lexeme α)}
      (hname : namedLiteral text = some value) :
      Parses depth .primary (.name text :: rest) (.literal value) rest
  | var {depth : ℕ} {text : Text} {name : Variable} {rest : List (Lexeme α)}
      (hliteral : (Expression.namedLiteral text : Option (Literal α)) = none)
      (hname : Variable.ofName text = some name)
      (hnext : rest.head? ≠ some (.symbol .lparen)) :
      Parses depth .primary (.name text :: rest) (.var name) rest
  | call₁ {depth : ℕ} {text : Text} {name : Func₁} {arg : ExpressionNode α}
      {tokens after rest : List (Lexeme α)}
      (hliteral : (Expression.namedLiteral text : Option (Literal α)) = none)
      (hname : Func.ofName text = some (.one name))
      (harg : Parses depth (.expression 0) tokens arg after) (hclose : ClosesCall after rest) :
      Parses depth .primary (.name text :: .symbol .lparen :: tokens) (.call₁ name arg) rest
  | call₂ {depth : ℕ} {text : Text} {name : Func₂} {arg₁ arg₂ : ExpressionNode α}
      {tokens middle after rest : List (Lexeme α)}
      (hliteral : (Expression.namedLiteral text : Option (Literal α)) = none)
      (hname : Func.ofName text = some (.two name))
      (harg₁ : Parses depth (.expression 0) tokens arg₁ (.symbol .comma :: middle))
      (harg₂ : Parses depth (.expression 0) middle arg₂ after) (hclose : ClosesCall after rest) :
      Parses depth .primary (.name text :: .symbol .lparen :: tokens) (.call₂ name arg₁ arg₂) rest
  | parens {depth : ℕ} {node : ExpressionNode α} {tokens rest : List (Lexeme α)}
      (hnode : Parses depth (.expression 0) tokens node (.symbol .rparen :: rest)) :
      Parses depth .primary (.symbol .lparen :: tokens) node rest
  | unary {depth : ℕ} {symbol : Symbol} {operator : UnaryOp} {operand : ExpressionNode α}
      {tokens rest : List (Lexeme α)} (hsymbol : symbol.unary? = some operator)
      (hoperand : Parses depth (.expression unaryMinimum) tokens operand rest) :
      Parses depth .primary (.symbol symbol :: tokens) (.unary operator operand) rest
  | stop {depth minimum : ℕ} {left : ExpressionNode α} {tokens : List (Lexeme α)}
      (hstop : continues minimum tokens = false) :
      Parses depth (.operators minimum left) tokens left tokens
  | step {depth minimum : ℕ} {operator : BinaryOp} {left right node : ExpressionNode α}
      {tokens middle rest : List (Lexeme α)} (hmin : minimum ≤ operator.precedence)
      (hright : Parses depth (.expression (operator.precedence + 1)) tokens right middle)
      (hnode : Parses depth (.operators minimum (.binary operator left right)) middle node rest) :
      Parses depth (.operators minimum left) (.symbol (.op operator) :: tokens) node rest
  | expression {depth minimum : ℕ} {left node : ExpressionNode α} {tokens middle rest : List (Lexeme α)}
      (hleft : Parses depth .primary tokens left middle)
      (hnode : Parses depth (.operators minimum left) middle node rest)
      (hend : minimum = 0 → rest.head? ≠ some (.symbol .question)) :
      Parses (depth + 1) (.expression minimum) tokens node rest
  | conditional {depth : ℕ} {left condition yes no : ExpressionNode α}
      {tokens middle afterCondition afterYes rest : List (Lexeme α)}
      (hleft : Parses depth .primary tokens left middle)
      (hcondition : Parses depth (.operators 0 left) middle condition (.symbol .question :: afterCondition))
      (hyes : Parses depth (.expression 0) afterCondition yes (.symbol .colon :: afterYes))
      (hno : Parses depth (.expression 0) afterYes no rest) :
      Parses (depth + 1) (.expression 0) tokens (.conditional condition yes no) rest

namespace Parses

variable {depth depth' : ℕ} {goal : Goal α} {tokens rest : List (Lexeme α)} {node : ExpressionNode α}

theorem mono (h : Parses depth goal tokens node rest) :
    ∀ {depth' : ℕ}, depth ≤ depth' → Parses depth' goal tokens node rest := by
  induction h with
  | number => exact fun _ => .number
  | string => exact fun _ => .string
  | namedLiteral hname => exact fun _ => .namedLiteral hname
  | var hliteral hname hnext => exact fun _ => .var hliteral hname hnext
  | call₁ hliteral hname _ hclose ih => exact fun hle => .call₁ hliteral hname (ih hle) hclose
  | call₂ hliteral hname _ _ hclose ih₁ ih₂ =>
    exact fun hle => .call₂ hliteral hname (ih₁ hle) (ih₂ hle) hclose
  | parens _ ih => exact fun hle => .parens (ih hle)
  | unary hsymbol _ ih => exact fun hle => .unary hsymbol (ih hle)
  | stop hstop => exact fun _ => .stop hstop
  | step hmin _ _ ihr ihn => exact fun hle => .step hmin (ihr hle) (ihn hle)
  | expression _ _ hend ihl ihn =>
    intro depth' hle
    obtain ⟨depth', rfl⟩ : ∃ k, depth' = k + 1 := ⟨depth' - 1, by omega⟩
    have hle' := Nat.le_of_succ_le_succ hle
    exact .expression (ihl hle') (ihn hle') hend
  | conditional _ _ _ _ ihl ihc ihy ihn =>
    intro depth' hle
    obtain ⟨depth', rfl⟩ : ∃ k, depth' = k + 1 := ⟨depth' - 1, by omega⟩
    have hle' := Nat.le_of_succ_le_succ hle
    exact .conditional (ihl hle') (ihc hle') (ihy hle') (ihn hle')

/-! ## What follows -/

end Parses

/-- How strongly an operator must bind for a part to go on with it. -/
def Goal.minimum : Goal α → ℕ
  | .primary => unaryMinimum
  | .expression minimum | .operators minimum _ => minimum

/-- Tokens that do not go on with a part that has come to an end. -/
def closes (minimum : ℕ) : List (Lexeme α) → Bool
  | .symbol (.op operator) :: _ => operator.precedence < minimum
  | .symbol .question :: _ => 0 < minimum
  | .symbol .lparen :: _ => false
  | _ => true

theorem precedence_lt (operator : BinaryOp) : operator.precedence < unaryMinimum := by
  cases operator <;> decide

variable {tokens : List (Lexeme α)}

theorem closes_mono {m n : ℕ} (hle : m ≤ n) (h : closes m tokens = true) : closes n tokens = true := by
  unfold closes at h ⊢
  split at h
  case h_1 => exact decide_eq_true (lt_of_lt_of_le (of_decide_eq_true h) hle)
  case h_2 => exact decide_eq_true (lt_of_lt_of_le (of_decide_eq_true h) hle)
  case h_3 => exact nomatch h
  case h_4 => rfl

theorem closes_primary {m : ℕ} (h : closes m tokens = true) : closes unaryMinimum tokens = true := by
  unfold closes at h ⊢
  split at h
  case h_1 => exact decide_eq_true (precedence_lt _)
  case h_2 => rfl
  case h_3 => exact nomatch h
  case h_4 => rfl

theorem continues_of_closes {m : ℕ} (h : closes m tokens = true) : continues m tokens = false := by
  unfold closes at h
  unfold continues
  split
  case h_1 => exact decide_eq_false (not_le.mpr (of_decide_eq_true h))
  case h_2 => rfl

theorem continues_congr {m : ℕ} {tokens tokens' : List (Lexeme α)} (h : tokens'.head? = tokens.head?) :
    continues m tokens' = continues m tokens := by
  cases tokens with
  | nil => rw [List.head?_eq_none_iff.mp h]
  | cons t tokens =>
    obtain ⟨rest, rfl⟩ : ∃ rest, tokens' = t :: rest := List.head?_eq_some_iff.mp h
    cases t with
    | symbol symbol => cases symbol <;> rfl
    | _ => rfl

/-- What follows looks the same, or does not go on. -/
def MayFollow (goal : Goal α) (rest rest' : List (Lexeme α)) : Prop :=
  rest'.head? = rest.head? ∨ closes goal.minimum rest' = true

variable {rest rest' : List (Lexeme α)}

theorem MayFollow.append {goal goal' : Goal α} (h : MayFollow goal rest rest')
    (hcloses : closes goal.minimum rest' = true → closes goal'.minimum rest' = true) (taken : List (Lexeme α)) :
    MayFollow goal' (taken ++ rest) (taken ++ rest') := by
  cases taken with
  | nil => exact h.imp id hcloses
  | cons t taken => exact .inl rfl

theorem MayFollow.cons {goal : Goal α} (t : Lexeme α) (rest rest' : List (Lexeme α)) :
    MayFollow goal (t :: rest) (t :: rest') := .inl rfl

theorem MayFollow.head_ne {goal : Goal α} {t : Lexeme α} (h : MayFollow goal rest rest')
    (ht : closes goal.minimum [t] = false) (hne : rest.head? ≠ some t) : rest'.head? ≠ some t := by
  rintro hhead
  rcases h with h | h
  · exact hne (h ▸ hhead)
  · obtain ⟨tail, rfl⟩ := List.head?_eq_some_iff.mp hhead
    have hsame : closes goal.minimum (t :: tail) = closes goal.minimum [t] := by
      cases t with
      | symbol symbol => cases symbol <;> rfl
      | _ => rfl
    rw [hsame, ht] at h
    cases h

namespace Parses

variable {depth : ℕ} {goal : Goal α} {tokens rest : List (Lexeme α)} {node : ExpressionNode α}

/-- The tokens that are taken, followed by anything that may follow, are taken for the same node. -/
theorem replace (h : Parses depth goal tokens node rest) : ∀ {rest' : List (Lexeme α)}, MayFollow goal rest rest' →
      ∃ taken, tokens = taken ++ rest ∧ (∀ t ∈ taken, t.isInvalid = false) ∧
        Parses depth goal (taken ++ rest') node rest' := by
  induction h with
  | number => exact fun _ => ⟨[_], rfl, by simp [Lexeme.isInvalid], .number⟩
  | string => exact fun _ => ⟨[_], rfl, by simp [Lexeme.isInvalid], .string⟩
  | namedLiteral hname => exact fun _ => ⟨[_], rfl, by simp [Lexeme.isInvalid], .namedLiteral hname⟩
  | var hliteral hname hnext =>
    intro rest' hfollow
    exact ⟨[_], rfl, by simp [Lexeme.isInvalid], .var hliteral hname (hfollow.head_ne rfl hnext)⟩
  | @call₁ depth text name arg tokens after rest hliteral hname _ hclose ih =>
    intro rest' _
    obtain ⟨close, rfl, hvalid, hclose'⟩ : ∃ close, after = close ++ rest ∧
        (∀ t ∈ close, t.isInvalid = false) ∧ ∀ rest' : List (Lexeme α), ClosesCall (close ++ rest') rest' ∧
          MayFollow (.expression 0) (close ++ rest) (close ++ rest') := by
      rcases hclose with rfl | rfl
      · exact ⟨[.symbol .rparen], rfl, by simp [Lexeme.isInvalid], fun _ => ⟨.inl rfl, .inl rfl⟩⟩
      · exact ⟨[.symbol .comma, .symbol .rparen], rfl, by simp [Lexeme.isInvalid],
          fun _ => ⟨.inr rfl, .inl rfl⟩⟩
    obtain ⟨taken, rfl, htaken, harg⟩ := ih (hclose' rest').2
    refine ⟨.name text :: .symbol .lparen :: (taken ++ close), by simp, ?_, ?_⟩
    · simp only [List.forall_mem_cons, List.forall_mem_append]
      exact ⟨rfl, rfl, htaken, hvalid⟩
    · have hcall : Parses depth .primary (.name text :: .symbol .lparen :: (taken ++ (close ++ rest')))
          (.call₁ name arg) rest' := .call₁ hliteral hname harg (hclose' rest').1
      simpa using hcall
  | @call₂ depth text name arg₁ arg₂ tokens middle after rest hliteral hname _ _ hclose ih₁ ih₂ =>
    intro rest' _
    obtain ⟨close, rfl, hvalid, hclose'⟩ : ∃ close, after = close ++ rest ∧
        (∀ t ∈ close, t.isInvalid = false) ∧ ∀ rest' : List (Lexeme α), ClosesCall (close ++ rest') rest' ∧
          MayFollow (.expression 0) (close ++ rest) (close ++ rest') := by
      rcases hclose with rfl | rfl
      · exact ⟨[.symbol .rparen], rfl, by simp [Lexeme.isInvalid], fun _ => ⟨.inl rfl, .inl rfl⟩⟩
      · exact ⟨[.symbol .comma, .symbol .rparen], rfl, by simp [Lexeme.isInvalid],
          fun _ => ⟨.inr rfl, .inl rfl⟩⟩
    obtain ⟨taken₂, rfl, htaken₂, harg₂⟩ := ih₂ (hclose' rest').2
    obtain ⟨taken₁, rfl, htaken₁, harg₁⟩ := ih₁ (MayFollow.cons (.symbol .comma) _ (taken₂ ++ (close ++ rest')))
    refine ⟨.name text :: .symbol .lparen :: (taken₁ ++ .symbol .comma :: (taken₂ ++ close)), by simp, ?_, ?_⟩
    · simp only [List.forall_mem_cons, List.forall_mem_append]
      exact ⟨rfl, rfl, htaken₁, rfl, htaken₂, hvalid⟩
    · have hcall : Parses depth .primary
          (.name text :: .symbol .lparen :: (taken₁ ++ .symbol .comma :: (taken₂ ++ (close ++ rest'))))
          (.call₂ name arg₁ arg₂) rest' := .call₂ hliteral hname harg₁ harg₂ (hclose' rest').1
      simpa using hcall
  | @parens depth node tokens rest _ ih =>
    intro rest' _
    obtain ⟨taken, rfl, htaken, hnode⟩ := ih (MayFollow.cons (.symbol .rparen) rest rest')
    refine ⟨.symbol .lparen :: (taken ++ [.symbol .rparen]), by simp, ?_, ?_⟩
    · simp only [List.forall_mem_cons, List.forall_mem_append]
      exact ⟨rfl, htaken, rfl, by simp⟩
    · have hparens : Parses depth .primary (.symbol .lparen :: (taken ++ .symbol .rparen :: rest')) node rest' :=
        .parens hnode
      simpa using hparens
  | @unary depth symbol operator operand tokens rest hsymbol _ ih =>
    intro rest' hfollow
    obtain ⟨taken, rfl, htaken, hoperand⟩ := ih hfollow
    exact ⟨.symbol symbol :: taken, rfl, List.forall_mem_cons.mpr ⟨rfl, htaken⟩, .unary hsymbol hoperand⟩
  | @stop depth minimum left tokens hstop =>
    intro rest' hfollow
    refine ⟨[], rfl, by simp, .stop ?_⟩
    rcases hfollow with h | h
    · exact (continues_congr h).trans hstop
    · exact continues_of_closes h
  | @step depth minimum operator left right node tokens middle rest hmin _ _ ihr ihn =>
    intro rest' hfollow
    obtain ⟨taken₂, rfl, htaken₂, hnode⟩ := ihn hfollow
    have hright : MayFollow (.expression (operator.precedence + 1) : Goal α) (taken₂ ++ rest) (taken₂ ++ rest') :=
      hfollow.append (fun h => closes_mono (Nat.le_succ_of_le hmin) h) taken₂
    obtain ⟨taken₁, rfl, htaken₁, hright⟩ := ihr hright
    refine ⟨.symbol (.op operator) :: (taken₁ ++ taken₂), by simp, ?_, ?_⟩
    · simp only [List.forall_mem_cons, List.forall_mem_append]
      exact ⟨rfl, htaken₁, htaken₂⟩
    · have hstep := Parses.step hmin hright hnode
      simpa using hstep
  | @expression depth minimum left node tokens middle rest _ _ hend ihl ihn =>
    intro rest' hfollow
    obtain ⟨taken₂, rfl, htaken₂, hnode⟩ := ihn hfollow
    have hprimary : MayFollow (.primary : Goal α) (taken₂ ++ rest) (taken₂ ++ rest') :=
      hfollow.append closes_primary taken₂
    obtain ⟨taken₁, rfl, htaken₁, hleft⟩ := ihl hprimary
    refine ⟨taken₁ ++ taken₂, by simp, List.forall_mem_append.mpr ⟨htaken₁, htaken₂⟩, ?_⟩
    have hend' : minimum = 0 → rest'.head? ≠ some (.symbol .question) := by
      rintro rfl
      exact hfollow.head_ne rfl (hend rfl)
    rw [List.append_assoc]
    exact .expression hleft hnode hend'
  | @conditional depth left condition yes no tokens middle afterCondition afterYes rest _ _ _ _ ihl ihc ihy ihn =>
    intro rest' hfollow
    obtain ⟨taken₄, rfl, htaken₄, hno⟩ := ihn hfollow
    obtain ⟨taken₃, rfl, htaken₃, hyes⟩ := ihy (MayFollow.cons (.symbol .colon) _ (taken₄ ++ rest'))
    obtain ⟨taken₂, rfl, htaken₂, hcondition⟩ :=
      ihc (MayFollow.cons (.symbol .question) _ (taken₃ ++ .symbol .colon :: (taken₄ ++ rest')))
    have hprimary : ∀ tokens tokens' : List (Lexeme α), MayFollow (.primary : Goal α)
        (taken₂ ++ .symbol .question :: tokens) (taken₂ ++ .symbol .question :: tokens') := by
      intro tokens tokens'
      cases taken₂ <;> exact .inl rfl
    obtain ⟨taken₁, rfl, htaken₁, hleft⟩ := ihl (hprimary _ (taken₃ ++ .symbol .colon :: (taken₄ ++ rest')))
    refine ⟨taken₁ ++ taken₂ ++ .symbol .question :: (taken₃ ++ .symbol .colon :: taken₄), by simp, ?_, ?_⟩
    · simp only [List.forall_mem_cons, List.forall_mem_append]
      exact ⟨⟨htaken₁, htaken₂⟩, rfl, htaken₃, rfl, htaken₄⟩
    · have hconditional := Parses.conditional hleft hcondition hyes hno
      simpa using hconditional

theorem taken (h : Parses depth goal tokens node rest) :
    ∃ taken, tokens = taken ++ rest ∧ ∀ t ∈ taken, t.isInvalid = false := by
  obtain ⟨taken, htokens, hvalid, -⟩ := h.replace (.inl rfl)
  exact ⟨taken, htokens, hvalid⟩

theorem length_le (h : Parses depth goal tokens node rest) : rest.length ≤ tokens.length := by
  obtain ⟨taken, rfl, -⟩ := h.taken
  simp

end Parses

/-! ## Runs of the parser -/

section Sound

variable {depth : ℕ} {tokens rest : List (Lexeme α)} {node : ExpressionNode α}

theorem advance_ok (h : advance tokens = .ok rest) : rest = tokens := by
  unfold advance at h
  split at h
  · cases h
  · cases h
    rfl

theorem expect_ok {symbol : Symbol} (h : expect symbol tokens = .ok rest) : tokens = .symbol symbol :: rest := by
  unfold expect at h
  split at h
  case h_1 current rest' =>
    split_ifs at h with hsymbol
    rw [hsymbol, advance_ok h]
  case h_2 => cases h

variable {e : Parser α}

variable {after : List (Lexeme α)}

theorem arguments_nil {n : ℕ} (h : arguments e n tokens = .ok ([], rest)) (hclose : expect .rparen rest = .ok after) :
    tokens = .symbol .rparen :: after := by
  cases n with
  | zero =>
    cases h
    exact expect_ok hclose
  | succ n =>
    unfold arguments at h
    split at h
    case h_1 =>
      cases h
      exact expect_ok hclose
    case h_2 =>
      obtain ⟨⟨arg, rest₁⟩, -, h⟩ := ok_of_bind h
      dsimp only at h
      split at h
      case h_1 =>
        obtain ⟨rest₂, -, h⟩ := ok_of_bind h
        obtain ⟨⟨args, rest₃⟩, -, h⟩ := ok_of_bind h
        cases h
      case h_2 => cases h

theorem arguments_one {n : ℕ} {arg : ExpressionNode α} (h : arguments e n tokens = .ok ([arg], rest))
    (hclose : expect .rparen rest = .ok after) : ∃ rest', e tokens = .ok (arg, rest') ∧ ClosesCall rest' after := by
  cases n with
  | zero => cases h
  | succ n =>
    unfold arguments at h
    split at h
    case h_1 => cases h
    case h_2 =>
      obtain ⟨⟨arg', rest₁⟩, harg, h⟩ := ok_of_bind h
      dsimp only at h
      split at h
      case h_1 rest₁ =>
        obtain ⟨rest₂, hadvance, h⟩ := ok_of_bind h
        obtain ⟨⟨args, rest₃⟩, hargs, h⟩ := ok_of_bind h
        cases h
        rw [advance_ok hadvance] at hargs
        exact ⟨_, harg, .inr (by rw [arguments_nil hargs hclose])⟩
      case h_2 =>
        cases h
        exact ⟨_, harg, .inl (expect_ok hclose)⟩

theorem arguments_two {n : ℕ} {arg₁ arg₂ : ExpressionNode α} (h : arguments e n tokens = .ok ([arg₁, arg₂], rest))
    (hclose : expect .rparen rest = .ok after) :
    ∃ middle rest', e tokens = .ok (arg₁, .symbol .comma :: middle) ∧ e middle = .ok (arg₂, rest') ∧
      ClosesCall rest' after := by
  cases n with
  | zero => cases h
  | succ n =>
    unfold arguments at h
    split at h
    case h_1 => cases h
    case h_2 =>
      obtain ⟨⟨arg', rest₁⟩, harg, h⟩ := ok_of_bind h
      dsimp only at h
      split at h
      case h_1 rest₁ =>
        obtain ⟨rest₂, hadvance, h⟩ := ok_of_bind h
        obtain ⟨⟨args, rest₃⟩, hargs, h⟩ := ok_of_bind h
        cases h
        rw [advance_ok hadvance] at hargs
        obtain ⟨rest', harg₂, hcloses⟩ := arguments_one hargs hclose
        exact ⟨_, rest', harg, harg₂, hcloses⟩
      case h_2 => cases h

variable {run : ℕ → Parser α}

/-- Every run of the recursive call has a derivation. -/
def Sound (depth : ℕ) (run : ℕ → Parser α) : Prop :=
  ∀ {minimum : ℕ} {tokens rest : List (Lexeme α)} {node : ExpressionNode α},
    run minimum tokens = .ok (node, rest) → Parses depth (.expression minimum) tokens node rest

theorem named_sound (hrun : Sound depth run) {text : Text} (h : named run text tokens = .ok (node, rest)) :
    Parses depth .primary (.name text :: tokens) node rest := by
  unfold named at h
  split at h
  case h_1 value hvalue =>
    cases h
    exact .namedLiteral hvalue
  case h_2 hliteral =>
    split at h
    case h_1 rest₁ =>
      split at h
      case h_1 => cases h
      case h_2 name hname =>
        obtain ⟨rest₂, hadvance, h⟩ := ok_of_bind h
        obtain ⟨⟨args, rest₃⟩, hargs, h⟩ := ok_of_bind h
        obtain ⟨rest₄, hclose, h⟩ := ok_of_bind h
        rw [advance_ok hadvance] at hargs
        split at h
        case h_2 => cases h
        case h_1 node' hnode =>
          cases h
          unfold callNode at hnode
          split at hnode
          case h_1 name arg =>
            cases hnode
            obtain ⟨after, harg, hcloses⟩ := arguments_one hargs hclose
            exact .call₁ hliteral hname (hrun harg) hcloses
          case h_2 name arg₁ arg₂ =>
            cases hnode
            obtain ⟨middle, after, harg₁, harg₂, hcloses⟩ := arguments_two hargs hclose
            exact .call₂ hliteral hname (hrun harg₁) (hrun harg₂) hcloses
          case h_3 => cases hnode
    case h_2 hnext =>
      split at h
      case h_2 => cases h
      case h_1 name hname =>
        cases h
        refine .var hliteral hname fun hhead => ?_
        obtain ⟨tail, htail⟩ := List.head?_eq_some_iff.mp hhead
        exact hnext tail htail

theorem primary_sound (hrun : Sound depth run) (h : primary run tokens = .ok (node, rest)) :
    Parses depth .primary tokens node rest := by
  unfold primary at h
  split at h
  case h_1 => cases h
  case h_2 token rest₁ =>
    obtain ⟨rest₂, hadvance, h⟩ := ok_of_bind h
    rw [advance_ok hadvance] at h
    split at h
    case h_1 =>
      cases h
      exact .number
    case h_2 =>
      cases h
      exact .string
    case h_3 =>
      obtain ⟨⟨node', rest₃⟩, hnode, h⟩ := ok_of_bind h
      obtain ⟨rest₄, hclose, h⟩ := ok_of_bind h
      cases h
      rw [expect_ok hclose] at hnode
      exact .parens (hrun hnode)
    case h_4 symbol _ =>
      split at h
      case h_2 => cases h
      case h_1 operator hsymbol =>
        obtain ⟨⟨operand, rest₃⟩, hoperand, h⟩ := ok_of_bind h
        cases h
        exact .unary hsymbol (hrun hoperand)
    case h_5 text => exact named_sound hrun h
    case h_6 => cases h

theorem operators_sound (hrun : Sound depth run) {minimum : ℕ} (n : ℕ) :
    ∀ {left : ExpressionNode α} {tokens : List (Lexeme α)}, tokens.length ≤ n →
      operators run minimum n left tokens = .ok (node, rest) →
        Parses depth (.operators minimum left) tokens node rest := by
  induction n with
  | zero =>
    intro left tokens hlength h
    rw [List.eq_nil_of_length_eq_zero (Nat.le_zero.mp hlength)] at h ⊢
    cases h
    exact .stop rfl
  | succ n ih =>
    intro left tokens hlength h
    unfold operators at h
    split at h
    case h_1 operator rest₁ =>
      split_ifs at h with hmin
      · obtain ⟨rest₂, hadvance, h⟩ := ok_of_bind h
        obtain ⟨⟨right, rest₃⟩, hright, h⟩ := ok_of_bind h
        rw [advance_ok hadvance] at hright
        have hparses := hrun hright
        have hle := hparses.length_le
        rw [List.length_cons] at hlength
        exact .step hmin hparses (ih (by omega) h)
      · cases h
        exact .stop (decide_eq_false hmin)
    case h_2 hnext =>
      cases h
      refine .stop ?_
      unfold continues
      split
      case h_1 => exact absurd rfl (hnext _ _)
      case h_2 => rfl

theorem expression_sound : ∀ {depth : ℕ}, Sound depth (expression depth : ℕ → Parser α) := by
  intro depth
  induction depth with
  | zero =>
    intro minimum tokens rest node h
    cases h
  | succ depth ih =>
    intro minimum tokens rest node h
    unfold expression at h
    obtain ⟨⟨left, rest₁⟩, hleft, h⟩ := ok_of_bind h
    obtain ⟨⟨left', rest₂⟩, hnode, h⟩ := ok_of_bind h
    have hleft := primary_sound ih hleft
    have hnode : Parses depth (.operators minimum left) rest₁ left' rest₂ :=
      operators_sound ih _ le_rfl hnode
    dsimp only at h
    split at h
    case h_1 after =>
      split_ifs at h with hmin
      · obtain ⟨after₁, hadvance, h⟩ := ok_of_bind h
        obtain ⟨⟨yes, after₂⟩, hyes, h⟩ := ok_of_bind h
        obtain ⟨after₃, hcolon, h⟩ := ok_of_bind h
        obtain ⟨⟨no, after₄⟩, hno, h⟩ := ok_of_bind h
        cases h
        subst hmin
        obtain rfl : after₂ = _ := expect_ok hcolon
        rw [advance_ok hadvance] at hyes
        exact .conditional hleft hnode (ih hyes) (ih hno)
      · cases h
        exact .expression hleft hnode fun hzero => absurd hzero hmin
    case h_2 hnext =>
      cases h
      refine .expression hleft hnode fun _ hhead => ?_
      obtain ⟨tail, htail⟩ := List.head?_eq_some_iff.mp hhead
      exact hnext tail htail

end Sound

section Complete

/-- The parser does what a derivation says. -/
def Runs (depth : ℕ) (tokens : List (Lexeme α)) (node : ExpressionNode α) (rest : List (Lexeme α)) :
    Goal α → Prop
  | .primary => primary (expression depth) tokens = .ok (node, rest)
  | .expression minimum => expression depth minimum tokens = .ok (node, rest)
  | .operators minimum left => ∀ n, tokens.length ≤ n →
      operators (expression depth) minimum n left tokens = .ok (node, rest)

def Valid (tokens : List (Lexeme α)) : Prop := ∀ t ∈ tokens, t.isInvalid = false

theorem Valid.of_append {taken rest : List (Lexeme α)} (h : Valid (taken ++ rest)) : Valid rest :=
  (List.forall_mem_append.mp h).2

variable {rest : List (Lexeme α)} {tokens : List (Lexeme α)} {node : ExpressionNode α}

theorem Valid.tail {t : Lexeme α} (h : Valid (t :: rest)) : Valid rest :=
  (List.forall_mem_cons.mp h).2

theorem advance_valid (h : Valid tokens) : advance tokens = .ok tokens := by
  cases tokens with
  | nil => rfl
  | cons t tokens =>
    cases t with
    | invalid diagnostic => exact nomatch h _ (List.mem_cons_self ..)
    | _ => rfl

theorem expect_valid {symbol : Symbol} (h : Valid rest) :
    expect symbol (.symbol symbol :: rest) = .ok rest := (if_pos rfl).trans (advance_valid h)

variable {depth : ℕ} {goal : Goal α}

theorem Parses.valid_rest {tokens rest : List (Lexeme α)} (h : Parses depth goal tokens node rest)
    (hvalid : Valid tokens) : Valid rest := by
  obtain ⟨taken, rfl, -⟩ := h.taken
  exact hvalid.of_append

theorem Parses.head_ne_rparen {depth minimum : ℕ} {rest rest' : List (Lexeme α)} :
    ¬Parses depth (.expression minimum) (.symbol .rparen :: rest) node rest' := by
  have hprimary : ∀ {depth : ℕ} {node : ExpressionNode α} {rest' : List (Lexeme α)},
      ¬Parses depth .primary (.symbol .rparen :: rest) node rest' := by
    intro depth node rest' h
    cases h with
    | unary hsymbol _ => cases hsymbol
  intro h
  cases h with
  | expression hleft _ _ => exact hprimary hleft
  | conditional hleft _ _ _ => exact hprimary hleft

theorem Parses.ne_nil {depth minimum : ℕ} : ¬Parses depth (.expression minimum) [] node rest := by
  intro h
  cases h with
  | expression hleft _ _ => cases hleft
  | conditional hleft _ _ _ => cases hleft

section

variable {depth n : ℕ} {tokens middle after rest : List (Lexeme α)} {arg arg₁ arg₂ : ExpressionNode α}

theorem arguments_cons {e : Parser α} (hhead : ∀ rest, tokens ≠ .symbol .rparen :: rest) :
    arguments e (n + 1) tokens = (do
      let (arg, rest) ← e tokens
      match rest with
      | .symbol .comma :: rest =>
        let rest ← advance rest
        let (args, rest) ← arguments e n rest
        return (arg :: args, rest)
      | _ => return ([arg], rest)) := by
  conv_lhs => unfold arguments
  split
  case h_1 rest => exact absurd rfl (hhead rest)
  case h_2 => rfl

theorem arguments_last (harg : Parses depth (.expression 0) tokens arg after)
    (hrun : expression depth 0 tokens = .ok (arg, after)) (hclose : ClosesCall after rest) (hvalid : Valid after) :
    arguments (expression depth 0) (n + 2) tokens = .ok ([arg], .symbol .rparen :: rest) := by
  have hhead : ∀ rest, tokens ≠ .symbol .rparen :: rest := by
    rintro rest rfl
    exact harg.head_ne_rparen
  rw [arguments_cons hhead, hrun, ok_bind]
  rcases hclose with rfl | rfl
  · rfl
  · dsimp only
    rw [advance_valid hvalid.tail, ok_bind]
    rfl

theorem arguments_first (harg : Parses depth (.expression 0) tokens arg₁ (.symbol .comma :: middle))
    (hrun : expression depth 0 tokens = .ok (arg₁, .symbol .comma :: middle)) (hvalid : Valid middle)
    (hrest : arguments (expression depth 0) n middle = .ok ([arg₂], rest)) :
    arguments (expression depth 0) (n + 1) tokens = .ok ([arg₁, arg₂], rest) := by
  have hhead : ∀ rest, tokens ≠ .symbol .rparen :: rest := by
    rintro rest rfl
    exact harg.head_ne_rparen
  rw [arguments_cons hhead, hrun, ok_bind]
  dsimp only
  rw [advance_valid hvalid, ok_bind, hrest]
  rfl

theorem named_call {name : Func} {text : Text} {args : List (ExpressionNode α)} {node : ExpressionNode α}
    (hliteral : (namedLiteral text : Option (Literal α)) = none) (hname : Func.ofName text = some name)
    (hvalid : Valid tokens) (hrest : Valid rest)
    (hargs : arguments (expression depth 0) (tokens.length + 1) tokens = .ok (args, .symbol .rparen :: rest))
    (hnode : callNode name args = some node) :
    named (expression depth) text (.symbol .lparen :: tokens) = .ok (node, rest) := by
  unfold named
  simp only [hliteral, hname, advance_valid hvalid, ok_bind, hargs, expect_valid hrest, hnode]
  rfl

end

theorem Parses.runs {tokens rest : List (Lexeme α)} (h : Parses depth goal tokens node rest) :
    Valid tokens → Runs depth tokens node rest goal := by
  induction h with
  | number =>
    intro hvalid
    simp only [Runs, primary, advance_valid hvalid.tail, ok_bind]
    rfl
  | string =>
    intro hvalid
    simp only [Runs, primary, advance_valid hvalid.tail, ok_bind]
    rfl
  | namedLiteral hname =>
    intro hvalid
    simp only [Runs, primary, advance_valid hvalid.tail, ok_bind, named, hname]
  | @var depth text name rest hliteral hname hnext =>
    intro hvalid
    simp only [Runs, primary, advance_valid hvalid.tail, ok_bind, named, hliteral]
    split
    case h_1 => exact absurd rfl hnext
    case h_2 => simp only [hname]
  | @call₁ depth text name arg tokens after rest hliteral hname harg hclose ih =>
    intro hvalid
    have htokens := hvalid.tail.tail
    have hafter := harg.valid_rest htokens
    have hrest : Valid rest := by
      rcases hclose with rfl | rfl
      · exact hafter.tail
      · exact hafter.tail.tail
    obtain ⟨n, hn⟩ : ∃ n, tokens.length = n + 1 := by
      cases tokens with
      | nil => exact absurd harg Parses.ne_nil
      | cons t tokens => exact ⟨tokens.length, rfl⟩
    simp only [Runs, primary, advance_valid hvalid.tail, ok_bind]
    have hargs : arguments (Expression.expression depth 0) (tokens.length + 1) tokens
        = .ok ([arg], .symbol .rparen :: rest) := by
      rw [hn]
      exact arguments_last harg (ih htokens) hclose hafter
    exact named_call hliteral hname htokens hrest hargs rfl
  | @call₂ depth text name arg₁ arg₂ tokens middle after rest hliteral hname harg₁ harg₂ hclose ih₁ ih₂ =>
    intro hvalid
    have htokens := hvalid.tail.tail
    have hmiddle := (harg₁.valid_rest htokens).tail
    have hafter := harg₂.valid_rest hmiddle
    have hrest : Valid rest := by
      rcases hclose with rfl | rfl
      · exact hafter.tail
      · exact hafter.tail.tail
    obtain ⟨n, hn⟩ : ∃ n, tokens.length = n + 2 := by
      have hle := harg₁.length_le
      cases middle with
      | nil => exact absurd harg₂ Parses.ne_nil
      | cons t middle =>
        simp only [List.length_cons] at hle
        exact ⟨tokens.length - 2, by omega⟩
    simp only [Runs, primary, advance_valid hvalid.tail, ok_bind]
    have hargs : arguments (Expression.expression depth 0) (tokens.length + 1) tokens
        = .ok ([arg₁, arg₂], .symbol .rparen :: rest) := by
      rw [hn]
      exact arguments_first harg₁ (ih₁ htokens) hmiddle (arguments_last harg₂ (ih₂ hmiddle) hclose hafter)
    exact named_call hliteral hname htokens hrest hargs rfl
  | @parens depth node tokens rest hnode ih =>
    intro hvalid
    have hrun : Expression.expression depth 0 tokens = _ := ih hvalid.tail
    have hrest := (hnode.valid_rest hvalid.tail).tail
    simp only [Runs, primary, advance_valid hvalid.tail, ok_bind, hrun, expect_valid hrest]
    rfl
  | @unary depth symbol operator operand tokens rest hsymbol _ ih =>
    intro hvalid
    have hrun : Expression.expression depth unaryMinimum tokens = _ := ih hvalid.tail
    unfold Symbol.unary? at hsymbol
    split at hsymbol
    case h_4 => cases hsymbol
    all_goals
      cases hsymbol
      simp only [Runs, primary, advance_valid hvalid.tail, ok_bind, Symbol.unary?, hrun]
      rfl
  | @stop depth minimum left tokens hstop =>
    intro hvalid n hlength
    cases n with
    | zero => rfl
    | succ n =>
      unfold operators
      split
      case h_1 => exact if_neg (of_decide_eq_false hstop)
      case h_2 => rfl
  | @step depth minimum operator left right node tokens middle rest hmin hright hnode ihr ihn =>
    intro hvalid n hlength
    obtain ⟨n, rfl⟩ : ∃ k, n = k + 1 := ⟨n - 1, by rw [List.length_cons] at hlength; omega⟩
    have hrun : Expression.expression depth (operator.precedence + 1) tokens = _ := ihr hvalid.tail
    have hle := hright.length_le
    have hmiddle : middle.length ≤ n := by
      rw [List.length_cons] at hlength
      omega
    simp only [operators, if_pos hmin, advance_valid hvalid.tail, ok_bind, hrun]
    exact ihn (hright.valid_rest hvalid.tail) n hmiddle
  | @expression depth minimum left node tokens middle rest hleft hnode hend ihl ihn =>
    intro hvalid
    have hprimary : primary (Expression.expression depth) tokens = _ := ihl hvalid
    have hoperators : operators (Expression.expression depth) minimum middle.length left middle = _ :=
      ihn (hleft.valid_rest hvalid) _ le_rfl
    simp only [Runs, Expression.expression, hprimary, ok_bind, hoperators]
    split
    case h_1 => exact if_neg fun hzero => hend hzero rfl
    case h_2 => rfl
  | @conditional depth left condition yes no tokens middle afterCondition afterYes rest hleft hcondition hyes hno
      ihl ihc ihy ihn =>
    intro hvalid
    have hmiddle := hleft.valid_rest hvalid
    have hafter := (hcondition.valid_rest hmiddle).tail
    have hafterYes := (hyes.valid_rest hafter).tail
    have hprimary : primary (Expression.expression depth) tokens = _ := ihl hvalid
    have hoperators : operators (Expression.expression depth) 0 middle.length left middle = _ :=
      ihc hmiddle _ le_rfl
    have hyesRun : Expression.expression depth 0 afterCondition = _ := ihy hafter
    have hnoRun : Expression.expression depth 0 afterYes = _ := ihn hafterYes
    simp only [Runs, Expression.expression, hprimary, ok_bind, hoperators, if_true, advance_valid hafter,
      hyesRun, expect_valid hafterYes, hnoRun]
    rfl

theorem Parses.unique {depth depth' : ℕ} {minimum : ℕ} {tokens rest rest' : List (Lexeme α)}
    {node node' : ExpressionNode α} (h : Parses depth (.expression minimum) tokens node rest)
    (h' : Parses depth' (.expression minimum) tokens node' rest') (hvalid : Valid tokens) :
    node = node' ∧ rest = rest' := by
  have hrun : Expression.expression (max depth depth') minimum tokens = .ok (node, rest) :=
    (h.mono (le_max_left _ _)).runs hvalid
  have hrun' : Expression.expression (max depth depth') minimum tokens = .ok (node', rest') :=
    (h'.mono (le_max_right _ _)).runs hvalid
  rw [hrun] at hrun'
  exact Prod.mk.inj (Except.ok.inj hrun')

theorem Parses.valid (h : Parses depth goal tokens node []) : Valid tokens := by
  obtain ⟨taken, rfl, hvalid⟩ := h.taken
  rwa [List.append_nil]

theorem parseTokens_eq_ok_iff : parseTokens tokens = .ok node ↔ Parses maxNesting (.expression 0) tokens node [] := by
  constructor
  · intro h
    obtain ⟨tokens', hadvance, h⟩ := ok_of_bind h
    obtain ⟨⟨node', rest⟩, hrun, h⟩ := ok_of_bind h
    rw [advance_ok hadvance] at hrun
    cases rest with
    | nil =>
      cases h
      exact expression_sound hrun
    | cons t rest => cases h
  · intro h
    have hrun : expression maxNesting 0 tokens = .ok (node, []) := h.runs h.valid
    unfold parseTokens
    rw [advance_valid h.valid, ok_bind, hrun]
    rfl

end Complete

end Vancine.Expression
