import Vancine.AuthFlows.Proofs

/-!
# One-time flows and assertions

A flow that was returned stays marked until it is removed, so no call returns it again. An assertion is refused as long
as the row of its first use is there; the clean-up removes that row a day after the use, whatever its expiry says.
-/

namespace Vancine.AuthFlows

open Lib

section OneTime

variable {authFlowTokenHash : String → String} {signed : String → Option AuthClaims} {π ρ : Type}

/-! ## What one call does -/

variable {c : Consumption π ρ} {s : System π ρ}

variable {db db' : Database π ρ} {flow : AuthFlow π} {a : Assertion} {as : List Assertion}

/-- **A consumption that succeeds.** It returns a row that matches, was not consumed and has not expired. -/
theorem consumeAuthFlowWithAction_ok (h : consumeAuthFlowWithAction authFlowTokenHash db c = .ok (flow, db')) :
    ∃ row ∈ db.flows.rows, c.marks authFlowTokenHash row = true ∧ c.checked < row.expiresAt ∧ flow = row.consume c.now ∧
      claimAll authFlowTokenHash c.acted (db.flows.consume (c.marks authFlowTokenHash) c.now)
        (c.action flow db.rest).1 = .ok db'.flows ∧ (c.action flow db.rest).2 = .ok db'.rest := by
  unfold consumeAuthFlowWithAction at h
  split at h
  · cases h
  simp only at h
  split at h
  · cases h
  rename_i consumed hfind
  split at h
  · cases h
  split at h
  · cases h
  rename_i hchecked
  split at h
  · cases h
  rename_i haffected
  -- The row that is found has the hash of the row that was marked, and hashes are unique.
  have hmem : consumed ∈ (db.flows.consume (c.marks authFlowTokenHash) c.now).rows := List.mem_of_find?_eq_some hfind
  have hsel : c.selects authFlowTokenHash consumed = true := List.find?_some hfind
  obtain ⟨row, hrow, hmarks⟩ : ∃ row ∈ db.flows.rows, c.marks authFlowTokenHash row = true := by
    have hpos : 0 < db.flows.rows.countP (c.marks authFlowTokenHash) := by
      rw [not_not.mp haffected]; exact Nat.one_pos
    exact List.countP_pos_iff.mp hpos
  have hhash : row.tokenHash = authFlowTokenHash c.token := by
    have hboth := hmarks
    rw [Consumption.marks, Bool.and_eq_true] at hboth
    exact (applyAuthFlowMatch_iff.mp hboth.1).1
  have hconsumed : consumed = row.consume c.now := by
    rcases AuthFlowTable.mem_consume.mp hmem with ⟨old, hold, -, rfl⟩ | ⟨hold, hnot⟩
    · have holdHash : old.tokenHash = authFlowTokenHash c.token := (applyAuthFlowMatch_iff.mp hsel).1
      rw [db.flows.eq_of_hash hold hrow (holdHash.trans hhash.symm)]
    · have holdHash : consumed.tokenHash = authFlowTokenHash c.token := (applyAuthFlowMatch_iff.mp hsel).1
      rw [db.flows.eq_of_hash hold hrow (holdHash.trans hhash.symm), hmarks] at hnot
      cases hnot
  obtain ⟨flows, hclaim, h⟩ := except_bind_ok h
  obtain ⟨rest, hrest, h⟩ := except_bind_ok h
  cases h
  subst hconsumed
  exact ⟨row, hrow, hmarks, not_not.mp hchecked, rfl, hclaim, hrest⟩

theorem mem_consume_of_consumed {flows : AuthFlowTable π} {row : AuthFlow π} (h : row ∈ flows.rows)
    (hconsumed : row.consumedAt ≠ none) : row ∈ (flows.consume (c.marks authFlowTokenHash) c.now).rows := by
  refine AuthFlowTable.mem_consume.mpr (.inr ⟨h, ?_⟩)
  have hlive : row.live c.now = false := by
    cases hrow : row.consumedAt with
    | none => exact absurd hrow hconsumed
    | some _ => simp [AuthFlow.live, hrow]
  rw [Consumption.marks, hlive, Bool.and_false]

/-- **An assertion that is accepted.** Its hash was free, and now it has a consumed row. -/
theorem claimExternalAuthAssertionWithTx_ok {flows flows' : AuthFlowTable π} {now : ℤ}
    (h : claimExternalAuthAssertionWithTx authFlowTokenHash flows now a = .ok flows') :
    now < a.expiresAt ∧ (∀ row ∈ flows.rows, row.tokenHash ≠ assertionHash authFlowTokenHash a.key) ∧
      ∃ new : AuthFlow π, flows'.rows = flows.rows ++ [new] ∧ new.id = flows.nextId ∧
        new.tokenHash = assertionHash authFlowTokenHash a.key ∧ new.expiresAt = a.expiresAt ∧
        new.consumedAt = some now := by
  unfold claimExternalAuthAssertionWithTx at h
  split at h
  · cases h
  rename_i hvalid
  simp only [not_or, not_not] at hvalid
  unfold AuthFlowTable.insert at h
  split at h
  · rename_i flows'' hinsert
    split at hinsert
    · rename_i hfree
      cases hinsert
      cases h
      exact ⟨hvalid.2.2, fun row hrow hhash => hfree (List.mem_map.mpr ⟨row, hrow, hhash⟩), _, rfl, rfl, rfl, rfl, rfl⟩
    · cases hinsert
  · cases h

/-! ## Assertions are remembered -/

/-- The row of an accepted assertion that has not expired. -/
structure RowOf (authFlowTokenHash : String → String) (a : Assertion) (row : AuthFlow π) : Prop where
  hash : row.tokenHash = assertionHash authFlowTokenHash a.key
  expiresAt : row.expiresAt = a.expiresAt
  consumed : ∃ consumedAt, row.consumedAt = some consumedAt ∧ a.expiresAt ≤ consumedAt + authFlowDefaultCleanupRetention

/-- The assertions accepted, the latest first: each has its row until it expires, and was not accepted again before. -/
structure Remembered (authFlowTokenHash : String → String) (flows : AuthFlowTable π) (clock : ℤ)
    (accepted : List (ℤ × Assertion)) : Prop where
  row : ∀ use ∈ accepted, use.2.expiresAt ≤ clock ∨ ∃ row ∈ flows.rows, RowOf authFlowTokenHash use.2 row
  once : accepted.Pairwise fun later earlier => later.2.key = earlier.2.key → earlier.2.expiresAt ≤ later.1

variable {flows flows' : AuthFlowTable π} {clock now : ℤ} {accepted : List (ℤ × Assertion)}

theorem Remembered.of_rows (h : Remembered authFlowTokenHash flows clock accepted) (hclock : clock ≤ now)
    (hrows : ∀ row ∈ flows.rows, ∀ a, RowOf authFlowTokenHash a row → a.expiresAt ≤ now ∨ row ∈ flows'.rows) :
    Remembered authFlowTokenHash flows' now accepted where
  row := by
    intro use huse
    rcases h.row use huse with hexpired | ⟨row, hrow, hof⟩
    · exact .inl (hexpired.trans hclock)
    · rcases hrows row hrow use.2 hof with hexpired | hrow'
      · exact .inl hexpired
      · exact .inr ⟨row, hrow', hof⟩
  once := h.once

theorem Remembered.consume (h : Remembered authFlowTokenHash flows clock accepted) (hclock : clock ≤ now)
    (c : Consumption π ρ) :
    Remembered authFlowTokenHash (flows.consume (c.marks authFlowTokenHash) c.now) now accepted := by
  refine h.of_rows hclock fun row hrow a hof => .inr (mem_consume_of_consumed hrow ?_)
  obtain ⟨consumedAt, hconsumed, -⟩ := hof.consumed
  rw [hconsumed]
  exact Option.some_ne_none _

/-- The clean-up removes rows of assertions that have expired. -/
theorem Remembered.deleteExpired (h : Remembered authFlowTokenHash flows clock accepted) (hclock : clock ≤ now) :
    Remembered authFlowTokenHash (deleteExpiredAuthFlows flows now) now accepted := by
  refine h.of_rows hclock fun row hrow a hof => ?_
  obtain ⟨consumedAt, hconsumed, hshort⟩ := hof.consumed
  have hretention : 0 ≤ authFlowDefaultCleanupRetention := by decide
  by_cases hexpired : expired now row = true
  · left
    simp only [expired, hconsumed, hof.expiresAt, Bool.or_eq_true, decide_eq_true_eq] at hexpired
    omega
  · right
    exact List.mem_filter.mpr ⟨hrow, by simpa using hexpired⟩

/-- An assertion that is accepted was not accepted before, or has expired since. -/
theorem Remembered.claim (h : Remembered authFlowTokenHash flows clock accepted) (hclock : clock ≤ now)
    (hshort : a.expiresAt ≤ now + authFlowDefaultCleanupRetention)
    (hok : claimExternalAuthAssertionWithTx authFlowTokenHash flows now a = .ok flows') :
    Remembered authFlowTokenHash flows' now ((now, a) :: accepted) := by
  obtain ⟨-, hfree, new, hrows, -, hhash, hexpires, hconsumed⟩ := claimExternalAuthAssertionWithTx_ok hok
  have hold : Remembered authFlowTokenHash flows' now accepted :=
    h.of_rows hclock fun row hrow _ _ => .inr (by rw [hrows]; exact List.mem_append_left _ hrow)
  constructor
  · intro use huse
    rcases List.mem_cons.mp huse with rfl | huse
    · exact .inr ⟨new, by rw [hrows]; simp, hhash, hexpires, now, hconsumed, hshort⟩
    · exact hold.row use huse
  · refine List.pairwise_cons.mpr ⟨fun use huse hkey => ?_, h.once⟩
    rcases h.row use huse with hexpired | ⟨row, hrow, hof⟩
    · exact hexpired.trans hclock
    · exact absurd (hof.hash.trans (congrArg _ hkey.symm)) (hfree row hrow)

theorem Remembered.claimAll (h : Remembered authFlowTokenHash flows clock accepted) (hclock : clock ≤ now)
    (hshort : ∀ a ∈ as, a.expiresAt ≤ now + authFlowDefaultCleanupRetention)
    (hok : claimAll authFlowTokenHash now flows as = .ok flows') :
    Remembered authFlowTokenHash flows' now ((as.map fun a => (now, a)).reverse ++ accepted) := by
  induction as generalizing flows clock accepted with
  | nil =>
    cases hok
    exact h.of_rows hclock fun _ hrow _ _ => .inr hrow
  | cons a as ih =>
    obtain ⟨flows₁, hfirst, hrest⟩ := except_bind_ok hok
    have hnext := h.claim hclock (hshort a List.mem_cons_self) hfirst
    have hall := ih hnext le_rfl (fun b hb => hshort b (List.mem_cons_of_mem _ hb)) hrest
    rwa [List.map_cons, List.reverse_cons, List.append_assoc, List.singleton_append]

/-! ## Flows are spent -/

/-- No row of a flow that was returned can be consumed again. -/
def Spent (flows : AuthFlowTable π) (consumed : List (Returned π)) : Prop :=
  ∀ returned ∈ consumed, ∀ row ∈ flows.rows,
    row.id = returned.flow.id ∨ row.tokenHash = returned.flow.tokenHash → row.consumedAt ≠ none

/-- What is open in the one table is open in the other. -/
def OpenIn (flows' flows : AuthFlowTable π) : Prop :=
  ∀ row ∈ flows'.rows, row.consumedAt = none → row ∈ flows.rows

theorem Spent.of_open {consumed : List (Returned π)} (h : Spent flows consumed) (hopen : OpenIn flows' flows) :
    Spent flows' consumed :=
  fun returned hr row hrow hsame hnone => h returned hr row (hopen row hrow hnone) hsame hnone

theorem openIn_consume (p : AuthFlow π → Bool) : OpenIn (flows.consume p now) flows := by
  intro row hrow hnone
  rcases AuthFlowTable.mem_consume.mp hrow with ⟨old, -, -, rfl⟩ | ⟨hold, -⟩
  · cases hnone
  · exact hold

theorem openIn_claim (h : claimExternalAuthAssertionWithTx authFlowTokenHash flows now a = .ok flows') :
    OpenIn flows' flows := by
  obtain ⟨-, -, new, hrows, -, -, -, hconsumed⟩ := claimExternalAuthAssertionWithTx_ok h
  intro row hrow hnone
  rw [hrows] at hrow
  rcases List.mem_append.mp hrow with hold | hnew
  · exact hold
  · rw [List.mem_singleton.mp hnew, hconsumed] at hnone
    cases hnone

theorem openIn_claimAll (h : claimAll authFlowTokenHash now flows as = .ok flows') : OpenIn flows' flows := by
  induction as generalizing flows with
  | nil => cases h; exact fun row hrow _ => hrow
  | cons a as ih =>
    obtain ⟨flows₁, hfirst, hrest⟩ := except_bind_ok h
    exact fun row hrow hnone => openIn_claim hfirst row (ih hrest row hrow hnone) hnone

theorem openIn_deleteExpired : OpenIn (deleteExpiredAuthFlows flows now) flows :=
  fun _ hrow _ => List.mem_of_mem_filter hrow

/-! ## What the calls returned -/

/-- The flow that was returned is good for the caller who got it. -/
structure Returned.Valid (r : Returned π) : Prop where
  inTime : r.checked < r.flow.expiresAt
  purpose : r.flow.purpose = r.matching.purpose
  user : r.matching.userId ≠ 0 → r.flow.userId = r.matching.userId
  session : r.matching.sessionId ≠ "" → r.flow.sessionId = r.matching.sessionId

/-- Flows, proofs and assertions were good for one use. -/
structure OneTime (s : System π ρ) : Prop where
  valid : ∀ r ∈ s.consumed, r.Valid
  flows : (s.consumed.map fun r => r.flow.id).Nodup
  proofs : (s.authorized.map fun use => trimSpace use.1).Nodup
  assertions : s.accepted.Pairwise fun later earlier => later.2.key = earlier.2.key → earlier.2.expiresAt ≤ later.1

/-- The flow of a proof is among those returned. -/
def ProofsReturned (authFlowTokenHash : String → String) (signed : String → Option AuthClaims) (s : System π ρ) :
    Prop :=
  ∀ use ∈ s.authorized, ∃ claims, signed (trimSpace use.1) = some claims ∧
    ∃ r ∈ s.consumed, r.flow.tokenHash = authFlowTokenHash claims.id

/-- What holds of the flows alone. -/
structure FlowsKept (authFlowTokenHash : String → String) (signed : String → Option AuthClaims) (s : System π ρ) :
    Prop where
  valid : ∀ r ∈ s.consumed, r.Valid
  flows : (s.consumed.map fun r => r.flow.id).Nodup
  proofs : (s.authorized.map fun use => trimSpace use.1).Nodup
  spent : Spent s.flows s.consumed
  returned : ProofsReturned authFlowTokenHash signed s

/-- **A consumption adds a flow that was not returned before.** -/
theorem returned_new {db : Database π ρ} (hspent : Spent s.flows s.consumed)
    (h : consumeAuthFlowWithAction authFlowTokenHash s.toDatabase c = .ok (flow, db)) :
    (⟨flow, c.matching, c.checked⟩ : Returned π).Valid ∧ flow.tokenHash = authFlowTokenHash c.token ∧
      (∀ r ∈ s.consumed, r.flow.id ≠ flow.id ∧ r.flow.tokenHash ≠ flow.tokenHash) ∧
      Spent db.flows (⟨flow, c.matching, c.checked⟩ :: s.consumed) := by
  obtain ⟨row, hrow, hmarks, hchecked, rfl, hclaim, -⟩ := consumeAuthFlowWithAction_ok h
  have hboth := hmarks
  rw [Consumption.marks, Bool.and_eq_true, AuthFlow.live, Bool.and_eq_true, Option.isNone_iff_eq_none] at hboth
  obtain ⟨hsel, hnone, -⟩ := hboth
  obtain ⟨hhash, hpurpose, -, -, huser, hsession⟩ := applyAuthFlowMatch_iff.mp hsel
  have hopen : OpenIn db.flows (s.flows.consume (c.marks authFlowTokenHash) c.now) := openIn_claimAll hclaim
  refine ⟨⟨hchecked, hpurpose, huser.resolve_left, hsession.resolve_left⟩, hhash, fun r hr => ?_, ?_⟩
  · exact ⟨fun e => hspent r hr row hrow (.inl e.symm) hnone, fun e => hspent r hr row hrow (.inr e.symm) hnone⟩
  · intro r hr other hother hsame hopenRow
    have hmarked := hopen other hother hopenRow
    have hother₀ : other ∈ s.flows.rows := openIn_consume _ other hmarked hopenRow
    rcases List.mem_cons.mp hr with rfl | hr
    · -- The row that was just marked is not open.
      have hsameRow : other = row := by
        rcases hsame with e | e
        · exact List.inj_on_of_nodup_map s.flows.nodup_id hother₀ hrow e
        · exact s.flows.eq_of_hash hother₀ hrow e
      subst hsameRow
      rcases AuthFlowTable.mem_consume.mp hmarked with ⟨old, -, -, rfl⟩ | ⟨-, hnot⟩
      · cases hopenRow
      · rw [hmarks] at hnot
        cases hnot
    · exact hspent r hr other hother₀ hsame hopenRow

theorem ProofUse.claims_signed {use : ProofUse ρ} {binding : VerificationBinding} {claims : AuthClaims}
    (h : use.claims signed = .ok (binding, claims)) : signed (trimSpace use.raw) = some claims := by
  obtain ⟨_, -, h⟩ := except_bind_ok h
  obtain ⟨claims', hverify, h⟩ := except_bind_ok h
  obtain ⟨_, -, h⟩ := except_bind_ok h
  obtain ⟨_, -, h⟩ := except_bind_ok h
  cases h
  obtain ⟨claims', hparse, h⟩ := except_bind_ok hverify
  have hsame : claims' = claims := by
    split at h
    · cases h
    split at h
    · cases h
    split at h
    · cases h
    split at h
    · cases h
    · cases h; rfl
  subst hsame
  unfold parseAuthClaims at hparse
  simp only at hparse
  split at hparse
  · cases hparse
  split at hparse
  · cases hparse
  rename_i found hsigned
  obtain ⟨_, -, hparse⟩ := except_bind_ok hparse
  split at hparse
  · cases hparse
  · cases hparse
    exact hsigned

theorem consumeOperationProof_ok {use : ProofUse ρ} {authorization : AuthFlowAuthorization}
    (h : consumeOperationProof authFlowTokenHash signed db use = .ok (authorization, flow, db')) :
    ∃ claims, signed (trimSpace use.raw) = some claims ∧
      consumeAuthFlowWithAction authFlowTokenHash db (use.consumption claims) = .ok (flow, db') := by
  obtain ⟨⟨binding, claims⟩, hclaims, h⟩ := except_bind_ok h
  obtain ⟨⟨flow', db''⟩, hconsume, h⟩ := except_bind_ok h
  cases h
  refine ⟨claims, ProofUse.claims_signed hclaims, ?_⟩
  cases hresult : consumeAuthFlowWithAction authFlowTokenHash db (use.consumption claims) with
  | error e => rw [hresult] at hconsume; cases hconsume
  | ok result => rw [hresult] at hconsume; cases hconsume; rfl

/-! ## Steps and runs -/

theorem ProofsReturned.cons (h : ProofsReturned authFlowTokenHash signed s) (r : Returned π) :
    ∀ use ∈ s.authorized, ∃ claims, signed (trimSpace use.1) = some claims ∧
      ∃ r' ∈ r :: s.consumed, r'.flow.tokenHash = authFlowTokenHash claims.id := by
  intro use huse
  obtain ⟨claims, hsigned, r', hr', hhash⟩ := h use huse
  exact ⟨claims, hsigned, r', List.mem_cons_of_mem _ hr', hhash⟩

theorem FlowsKept.step (h : FlowsKept authFlowTokenHash signed s) (call : Call π ρ) :
    FlowsKept authFlowTokenHash signed (step authFlowTokenHash signed s call) := by
  cases call with
  | consume c =>
    simp only [AuthFlows.step]
    split
    · rename_i flow db hok
      obtain ⟨hvalid, -, hnew, hspent⟩ := returned_new h.spent hok
      refine ⟨List.forall_mem_cons.mpr ⟨hvalid, h.valid⟩, List.nodup_cons.mpr ⟨fun hmem => ?_, h.flows⟩, h.proofs,
        hspent, h.returned.cons _⟩
      obtain ⟨r, hr, hid⟩ := List.mem_map.mp hmem
      exact (hnew r hr).1 hid
    · exact ⟨h.valid, h.flows, h.proofs, h.spent, h.returned⟩
  | prove use =>
    simp only [AuthFlows.step]
    split
    · rename_i authorization flow db hok
      obtain ⟨claims, hsigned, hconsume⟩ := consumeOperationProof_ok hok
      obtain ⟨hvalid, hhash, hnew, hspent⟩ := returned_new h.spent hconsume
      refine ⟨List.forall_mem_cons.mpr ⟨hvalid, h.valid⟩, List.nodup_cons.mpr ⟨fun hmem => ?_, h.flows⟩,
        List.nodup_cons.mpr ⟨fun hmem => ?_, h.proofs⟩, hspent, ?_⟩
      · obtain ⟨r, hr, hid⟩ := List.mem_map.mp hmem
        exact (hnew r hr).1 hid
      · -- The same text names the same flow.
        obtain ⟨earlier, hearlier, htext⟩ := List.mem_map.mp hmem
        obtain ⟨claims', hsigned', r, hr, hhash'⟩ := h.returned earlier hearlier
        rw [show trimSpace earlier.1 = trimSpace use.raw from htext, hsigned] at hsigned'
        cases hsigned'
        exact (hnew r hr).2 (hhash'.trans hhash.symm)
      · refine List.forall_mem_cons.mpr ⟨⟨claims, hsigned, _, List.mem_cons_self, hhash⟩, h.returned.cons _⟩
    · exact ⟨h.valid, h.flows, h.proofs, h.spent, h.returned⟩
  | claim now a =>
    simp only [AuthFlows.step]
    split
    · rename_i flows hok
      exact ⟨h.valid, h.flows, h.proofs, h.spent.of_open (openIn_claim hok), h.returned⟩
    · exact ⟨h.valid, h.flows, h.proofs, h.spent, h.returned⟩
  | deleteExpired now =>
    exact ⟨h.valid, h.flows, h.proofs, h.spent.of_open openIn_deleteExpired, h.returned⟩

/-- Every assertion that the call claims expires within a day. -/
def ShortLived (s : System π ρ) : Call π ρ → Prop
  | .consume c => ∀ row ∈ s.flows.rows, ∀ a ∈ (c.action (row.consume c.now) s.rest).1,
      a.expiresAt ≤ c.acted + authFlowDefaultCleanupRetention
  | .prove _ => True
  | .claim now a => a.expiresAt ≤ now + authFlowDefaultCleanupRetention
  | .deleteExpired _ => True

instance (s : System π ρ) (call : Call π ρ) : Decidable (ShortLived s call) :=
  match call with
  | .consume c => inferInstanceAs (Decidable (∀ row ∈ s.flows.rows, ∀ a ∈ (c.action (row.consume c.now) s.rest).1,
      a.expiresAt ≤ c.acted + authFlowDefaultCleanupRetention))
  | .prove _ => .isTrue trivial
  | .claim now a => inferInstanceAs (Decidable (a.expiresAt ≤ now + authFlowDefaultCleanupRetention))
  | .deleteExpired _ => .isTrue trivial

theorem Remembered.step {call : Call π ρ} (h : Remembered authFlowTokenHash s.flows s.clock s.accepted)
    (hchrono : Chronological s call) (hshort : ShortLived s call) :
    let t := step authFlowTokenHash signed s call
    Remembered authFlowTokenHash t.flows t.clock t.accepted := by
  have hlast : ∀ now ∈ call.times, s.clock ≤ now := (List.pairwise_cons.mp hchrono).1
  cases call with
  | consume c =>
    have hacted : s.clock ≤ c.acted := hlast _ (by simp [Call.times])
    simp only [AuthFlows.step]
    split
    · rename_i flow db hok
      obtain ⟨row, hrow, -, -, rfl, hclaim, -⟩ := consumeAuthFlowWithAction_ok hok
      have hnow : s.clock ≤ c.now := hlast _ (by simp [Call.times])
      have hmarked := (h.consume hacted c)
      exact hmarked.claimAll le_rfl (hshort row hrow) hclaim
    · exact h.of_rows hacted fun row hrow _ _ => .inr hrow
  | prove use =>
    have hacted : s.clock ≤ use.acted := hlast _ (by simp [Call.times])
    simp only [AuthFlows.step]
    split
    · rename_i authorization flow db hok
      obtain ⟨claims, -, hconsume⟩ := consumeOperationProof_ok hok
      obtain ⟨row, hrow, -, -, -, hclaim, -⟩ := consumeAuthFlowWithAction_ok hconsume
      exact (h.consume hacted (use.consumption claims)).claimAll le_rfl (fun a ha => absurd ha List.not_mem_nil)
        hclaim
    · exact h.of_rows hacted fun row hrow _ _ => .inr hrow
  | claim now a =>
    have hnow : s.clock ≤ now := hlast _ (by simp [Call.times])
    simp only [AuthFlows.step]
    split
    · rename_i flows hok
      exact h.claim hnow hshort hok
    · exact h.of_rows hnow fun row hrow _ _ => .inr hrow
  | deleteExpired now =>
    exact h.deleteExpired (hlast _ (by simp [Call.times]))

theorem refused_unchanged {call : Call π ρ} (h : Refused authFlowTokenHash signed s call) :
    (step authFlowTokenHash signed s call).toDatabase = s.toDatabase := by
  cases call with
  | consume c | prove use | claim now a => obtain ⟨e, he⟩ := h; simp only [step, he]; rfl
  | deleteExpired now => exact h.elim

/-- **One use.** In every run in which assertions expire within a day of their use, each flow is returned once, in time
and to a caller who matches, each proof authorizes once, and no assertion is accepted again before it expires; a call
that fails changes no row. -/
theorem one_time (authFlowTokenHash : String → String) (signed : String → Option AuthClaims) (db : Database π ρ)
    (clock : ℤ) (calls : List (Call π ρ))
    (hchrono : Along (step authFlowTokenHash signed) Chronological { toDatabase := db, clock } calls)
    (hshort : Along (step authFlowTokenHash signed) ShortLived { toDatabase := db, clock } calls) :
    OneTime (run (step authFlowTokenHash signed) { toDatabase := db, clock } calls) ∧
      ∀ (s : System π ρ) (call : Call π ρ), Refused authFlowTokenHash signed s call →
        (step authFlowTokenHash signed s call).toDatabase = s.toDatabase := by
  have hflows : FlowsKept authFlowTokenHash signed (run (step authFlowTokenHash signed)
      { toDatabase := db, clock } calls) := by
    refine run_invariant (fun s call h => h.step call) ?_ calls
    exact ⟨by simp, List.nodup_nil, List.nodup_nil, by simp [Spent], by simp [ProofsReturned]⟩
  have hassertions := run_invariant_along
    (I := fun s : System π ρ => Remembered authFlowTokenHash s.flows s.clock s.accepted)
    (fun s call h hboth => h.step hboth.1 hboth.2) ⟨by simp, .nil⟩ (hchrono.and hshort)
  exact ⟨⟨hflows.valid, hflows.flows, hflows.proofs, hassertions.once⟩, fun _ _ => refused_unchanged⟩

/-- A table with one flow, of user 7. -/
def oneFlow : Database Unit Unit where
  flows := {
    rows := [{ id := 1, tokenHash := "t", purpose := "oauth", userId := 7, expiresAt := 600 }]
    nextId := 2
    nodup_hash := by decide
    nodup_id := by decide
    id_lt := by decide }
  rest := ()

/-- The flow is consumed twice, and an assertion that is good for an hour is claimed in between and once more after
the clean-up. -/
def oneFlowCalls : List (Call Unit Unit) :=
  let assertion := ⟨"telegram", "signed", 3600 * 10 ^ 9⟩
  let matching := { purpose := "oauth", userId := 7 }
  let consumption := { token := "t", matching, now := 1, checked := 1, acted := 1 }
  [.consume consumption, .claim 2 assertion, .consume { consumption with now := 3, checked := 3, acted := 3 },
    .deleteExpired 4, .claim 5 assertion]

theorem one_time_oneFlow :
    OneTime (run (step id fun _ => none) { toDatabase := oneFlow, clock := 0 } oneFlowCalls) ∧
      ∀ (s : System Unit Unit) (call : Call Unit Unit), Refused id (fun _ => none) s call →
        (step id (fun _ => none) s call).toDatabase = s.toDatabase :=
  one_time id (fun _ => none) oneFlow 0 oneFlowCalls (by decide +kernel) (by decide +kernel)

/-- An assertion that is good for a month is claimed, removed a day later and claimed again. -/
def monthCalls : List (Call Unit Unit) :=
  let assertion := ⟨"telegram", "signed", 30 * 24 * 3600 * 10 ^ 9⟩
  [.claim 0 assertion, .deleteExpired (25 * 3600 * 10 ^ 9), .claim (26 * 3600 * 10 ^ 9) assertion]

theorem month_assertion_replayed :
    Along (step id fun _ => none) Chronological { toDatabase := oneFlow, clock := 0 } monthCalls ∧
      ¬OneTime (run (step id fun _ => none) { toDatabase := oneFlow, clock := 0 } monthCalls) := by
  refine ⟨by decide +kernel, fun h => ?_⟩
  exact absurd h.assertions (by decide +kernel)

end OneTime

end Vancine.AuthFlows
